import Mathlib.Data.List.Induction
import NorFlash.Proofs.Bench.Run
import NorFlash.Proofs.Engine.Checks

/-!
# Memory-mapped mode is left before the bus is used

What lies in the bus lock tells whether the controller is mapped, as long as the lock gives out what
was put into it and nobody else uses the controller. `Custody.step` is that invariant for one
interaction, and `suits_of_accepted` for a dialogue that keeps to the rule of custody.
`mapping_left_first` says what it means for a run of requests: the flag is set exactly if a call has
mapped the controller and it has not been aborted since, and nothing but an abort is asked of a
mapped controller.
-/

namespace NorFlash

variable {σ α : Type}

namespace Interaction

/-- Whether the controller is mapped after an interaction, if `mapped` tells whether it was. -/
def maps (mapped : Bool) : Interaction → Bool
  | call request reply => request.maps mapped reply
  | _ => mapped

/-- What lies in the bus lock after an interaction. -/
def slot (bus : Option BusState) : Interaction → Option BusState
  | acquire (some _) => none
  | release bus => some bus
  | _ => bus

/-- The lock gives out only what lies in it. -/
def Honest (bus : Option BusState) : Interaction → Prop
  | acquire (some given) => bus = some given
  | _ => True

/-- A mapped controller is asked for nothing but an abort, and the bus changes hands with a flag
that tells whether the controller is mapped. -/
def Suits (mapped : Bool) : Interaction → Prop
  | acquire (some bus) | release bus => bus.mapped = mapped
  | call request _ => request = .abort ∨ mapped = false
  | _ => True

end Interaction

/-- What is known of the mapping tells whether the controller is mapped: the flag of the bus in the
lock, or of the bus that is held. -/
def Custody.Agrees (bus : Option BusState) (mapped : Bool) : Custody → Prop
  | away => ∃ free, bus = some free ∧ free.mapped = mapped
  | holding flag => bus = none ∧ flag = mapped

/-- An interaction that is allowed suits the controller, and the flag goes on telling its mode. -/
theorem Custody.step {custody after : Custody} {interaction : Interaction}
    {bus : Option BusState} {mapped : Bool} (h : custody.next interaction = some after)
    (hagrees : custody.Agrees bus mapped) (hhonest : interaction.Honest bus) :
    interaction.Suits mapped ∧ after.Agrees (interaction.slot bus) (interaction.maps mapped) := by
  cases custody with
  | away =>
      obtain ⟨free, rfl, rfl⟩ := hagrees
      cases interaction with
      | acquire given =>
          cases given with
          | none =>
              obtain rfl := Option.some.inj h
              exact ⟨trivial, free, rfl, rfl⟩
          | some taken =>
              obtain rfl := Option.some.inj h
              obtain rfl := Option.some.inj hhonest
              exact ⟨rfl, rfl, rfl⟩
      | report =>
          obtain rfl := Option.some.inj h
          exact ⟨trivial, free, rfl, rfl⟩
      | release | arm | await | call => simp [next] at h
  | holding flag =>
      obtain ⟨rfl, rfl⟩ := hagrees
      cases interaction with
      | release given =>
          simp only [next, Option.ite_none_right_eq_some, Option.some.injEq] at h
          obtain ⟨hflag, rfl⟩ := h
          exact ⟨hflag, given, rfl, hflag⟩
      | arm | await =>
          cases flag with
          | true => simp [next] at h
          | false =>
              obtain rfl := Option.some.inj h
              exact ⟨trivial, rfl, rfl⟩
      | call request reply =>
          simp only [next, Option.ite_none_right_eq_some, Option.some.injEq] at h
          obtain ⟨hsuits, rfl⟩ := h
          exact ⟨hsuits, rfl, rfl⟩
      | acquire | report => simp [next] at h

namespace Dialogue

/-- What the rule of custody accepts suits the controller throughout, if the lock is honest. -/
theorem suits_of_accepted {dialogue : Dialogue} {custody last : Custody} {bus : Option BusState}
    {mapped : Bool} (h : dialogue.foldlM Custody.next custody = some last)
    (hhonest : dialogue.Throughout Interaction.slot Interaction.Honest bus)
    (hagrees : custody.Agrees bus mapped) :
    dialogue.Throughout Interaction.maps Interaction.Suits mapped ∧
      last.Agrees (dialogue.foldl Interaction.slot bus)
        (dialogue.foldl Interaction.maps mapped) := by
  induction dialogue generalizing custody bus mapped with
  | nil =>
      obtain rfl := Option.some.inj h
      exact ⟨trivial, hagrees⟩
  | cons interaction rest ih =>
      rw [List.foldlM_cons] at h
      obtain ⟨after, hnext, hrest⟩ := Option.bind_eq_some_iff.mp h
      obtain ⟨hsuits, hafter⟩ := Custody.step hnext hagrees hhonest.1
      obtain ⟨hthroughout, hlast⟩ := ih hrest hhonest.2 hafter
      exact ⟨⟨hsuits, hthroughout⟩, hlast⟩

/-- A call has mapped the controller, and it has not been aborted since. -/
def EndsMapped (dialogue : Dialogue) : Prop :=
  ∃ before mapping received after,
    dialogue = before ++ .call (.map mapping) (.ok received) :: after ∧
      ∀ reply, .call .abort reply ∉ after

/-- Whether the controller is mapped after a dialogue that it began unmapped. -/
def mapped (dialogue : Dialogue) : Bool :=
  dialogue.foldl Interaction.maps false

/-- The last interaction has mapped the controller, or it was mapped before and not aborted. -/
theorem endsMapped_concat (dialogue : Dialogue) (interaction : Interaction) :
    EndsMapped (dialogue ++ [interaction]) ↔
      (∃ mapping received, interaction = .call (.map mapping) (.ok received)) ∨
        dialogue.EndsMapped ∧ ∀ reply, interaction ≠ .call .abort reply := by
  constructor
  · rintro ⟨before, mapping, received, after, hsplit, hafter⟩
    obtain rfl | ⟨after, last, rfl⟩ := List.eq_nil_or_concat after
    · obtain ⟨-, hlast⟩ := List.append_inj' hsplit rfl
      exact .inl ⟨mapping, received, List.singleton_inj.mp hlast⟩
    · rw [List.concat_eq_append, ← List.cons_append, ← List.append_assoc] at hsplit
      obtain ⟨rfl, hlast⟩ := List.append_inj' hsplit rfl
      obtain rfl := List.singleton_inj.mp hlast
      refine .inr ⟨⟨before, mapping, received, after, rfl, fun reply hreply => ?_⟩, ?_⟩
      · exact hafter reply (by simp [hreply])
      · rintro reply rfl
        exact hafter reply (by simp)
  · rintro (⟨mapping, received, rfl⟩ | ⟨⟨before, mapping, received, after, rfl, hafter⟩, hlast⟩)
    · exact ⟨dialogue, mapping, received, [], rfl, by simp⟩
    · refine ⟨before, mapping, received, after ++ [interaction], by simp, fun reply hreply => ?_⟩
      rcases List.mem_append.mp hreply with hold | hnew
      · exact hafter reply hold
      · exact hlast reply (List.mem_singleton.mp hnew).symm

/-- A dialogue leaves the controller mapped exactly if a mapping was not aborted after. -/
theorem mapped_iff (dialogue : Dialogue) : dialogue.mapped = true ↔ dialogue.EndsMapped := by
  induction dialogue using List.reverseRecOn with
  | nil => simp [mapped, EndsMapped]
  | append_singleton dialogue interaction ih =>
      rw [endsMapped_concat, ← ih, mapped, List.foldl_append]
      show interaction.maps (mapped dialogue) = true ↔ _
      cases interaction with
      | call request reply =>
          cases request <;> cases reply <;> simp [Interaction.maps, BusCall.maps]
      | acquire | release | arm | await | report => simp [Interaction.maps]

end Dialogue

/-! ## The chip's side -/

namespace Chip

variable (chip : Chip)

/-- No instruction maps the chip or ends its mapping. -/
theorem mapped_obey (instruction : Instruction) (resetEnabled : Bool) (command : Command) :
    (chip.obey instruction resetEnabled command).2.mapped = chip.mapped := by
  cases instruction with
  | program =>
      simp only [obey, program]
      split
      · split <;> rfl
      · rfl
  | erase | eraseChip =>
      simp only [obey, erase]
      split <;> rfl
  | reset | enterQuadProtocol =>
      simp only [obey]
      split <;> rfl
  | setReadParameters | writeVolatileConfig | writeEnhancedConfig =>
      simp only [obey, writeVolatileConfig, writeEnhancedConfig]
      split
      · split <;> rfl
      · rfl
  | _ => rfl

/-- No command maps the chip or ends its mapping. -/
theorem mapped_execute (command : Command) :
    (chip.execute command).2.mapped = chip.mapped := by
  rw [execute_eq]
  split
  · rfl
  · unfold accept receive hear
    dsimp only
    split
    · rfl
    · split
      · split <;> rfl
      · split
        · exact mapped_obey ..
        · rfl

/-- A chip is mapped by a call to map it that it accepts, and unmapped by an abort. -/
theorem mapped_answer (request : BusCall) :
    (chip.answer request).2.mapped = request.maps chip.mapped (chip.answer request).1.reply := by
  cases request with
  | command command => exact mapped_execute chip command
  | start command => exact mapped_execute chip command
  | poll poll =>
      simp only [answer, Chip.poll, drawFailure]
      cases chip.plan.next.1 <;> rfl
  | map command =>
      simp only [answer, map, drawFailure]
      cases chip.plan.next.1 with
      | true => rfl
      | false =>
          dsimp only
          split
          · rfl
          · split <;> rfl
  | abort => rfl

end Chip

/-- On a bench the chip is mapped as what was said tells. -/
theorem Bench.mapped_of_says {bench after : Bench} {interaction : Interaction}
    (h : Bench.environment.Says bench interaction after) :
    after.chip.mapped = interaction.maps bench.chip.mapped := by
  cases h with
  | acquire | release | arm | report => rfl
  | await patience => exact congrArg Chip.mapped (Bench.chip_await bench patience)
  | call request =>
      exact (congrArg Chip.mapped (Bench.chip_call bench request)).trans
        (Chip.mapped_answer bench.chip request)

/-- A chip that only a program calls is mapped as the dialogue says. -/
theorem Bench.mapped_run (program : Program α) (bench : Bench) :
    (program.run Bench.environment bench).2.chip.mapped =
      (program.dialogue Bench.environment bench).foldl Interaction.maps bench.chip.mapped :=
  (program.tracks_run (·.chip.mapped) Interaction.maps (fun _ _ => True)
    (fun _ _ _ hsaid => ⟨trivial, Bench.mapped_of_says hsaid⟩) bench).2

/-- The bus that lies in the environment's lock, as `slot` tells it, is the one that was last given
back. It is given out, or the caller is sent away. -/
structure Environment.Guards (environment : Environment σ) (slot : σ → Option BusState) :
    Prop where
  acquire : ∀ patience state,
    (environment.acquire patience state).1 = none ∧
        slot (environment.acquire patience state).2 = slot state ∨
      ∃ bus, slot state = some bus ∧ (environment.acquire patience state).1 = some bus ∧
        slot (environment.acquire patience state).2 = none
  release : ∀ bus state, slot (environment.release bus state) = some bus
  arm : ∀ state, slot (environment.arm state) = slot state
  await : ∀ patience state, slot (environment.await patience state).2 = slot state
  call : ∀ request state, slot (environment.call request state).2 = slot state
  report : ∀ count state, slot (environment.report count state) = slot state

/-- The lock of a bench gives out what was put into it. -/
theorem Bench.guards_environment : Bench.environment.Guards Bench.bus where
  acquire patience bench := by
    cases hbus : bench.bus with
    | none => exact .inl ⟨hbus, rfl⟩
    | some bus => exact .inr ⟨bus, rfl, hbus, rfl⟩
  release _ _ := rfl
  arm _ := rfl
  await patience bench := Bench.bus_await bench patience
  call request bench := Bench.bus_call bench request
  report _ _ := rfl

namespace Environment.Guards

variable {environment : Environment σ} {slot : σ → Option BusState}

/-- What is said in surroundings that guard the lock is honest about it. -/
theorem step (h : environment.Guards slot) {state after : σ} {interaction : Interaction}
    (hsaid : environment.Says state interaction after) :
    interaction.Honest (slot state) ∧ slot after = interaction.slot (slot state) := by
  cases hsaid with
  | acquire patience =>
      obtain ⟨hgiven, hslot⟩ | ⟨bus, hfree, hgiven, hslot⟩ := h.acquire patience state
      · rw [hgiven]
        exact ⟨trivial, hslot⟩
      · rw [hgiven]
        exact ⟨hfree, hslot⟩
  | release bus => exact ⟨trivial, h.release bus state⟩
  | arm => exact ⟨trivial, h.arm state⟩
  | await patience => exact ⟨trivial, h.await patience state⟩
  | call request => exact ⟨trivial, h.call request state⟩
  | report count => exact ⟨trivial, h.report count state⟩

/-- Whatever a program asks, the lock is honest, and the dialogue tells what lies in it. -/
theorem honest (h : environment.Guards slot) (program : Program α) (state : σ) :
    (program.dialogue environment state).Throughout Interaction.slot Interaction.Honest
        (slot state) ∧
      slot (program.run environment state).2 =
        (program.dialogue environment state).foldl Interaction.slot (slot state) :=
  program.tracks_run slot Interaction.slot Interaction.Honest (fun _ _ _ => h.step) state

end Environment.Guards

/-! ## Requests that ask nothing -/

/-- Only reports are allowed. -/
def Interaction.reportsOnly : Rule Unit
  | _, report _ => some ()
  | _, _ => none

/-- Whatever it is answered, the program makes reports only. -/
def Program.Quiet (program : Program α) : Prop :=
  program.Follows Interaction.reportsOnly (fun _ _ => True) ()

/-- The action makes reports only. -/
abbrev Action.Quiet (action : Action α) : Prop :=
  Program.Quiet action.run

namespace Program

/-- A program that does nothing is quiet. -/
theorem quiet_pure (value : α) : (pure value : Program α).Quiet :=
  trivial

/-- A program that goes on is quiet if both its parts are. -/
theorem Quiet.bind {β : Type} {program : Program α} {next : α → Program β} (h : program.Quiet)
    (hnext : ∀ value, (next value).Quiet) : (program >>= next).Quiet :=
  Follows.bind h fun value _ _ => hnext value

/-- Changing the value is quiet. -/
theorem Quiet.map {β : Type} {program : Program α} (h : program.Quiet) (change : α → β) :
    (change <$> program).Quiet := by
  rw [map_eq_pure_bind]
  exact h.bind fun _ => quiet_pure _

/-- Leaving the reports out keeps a program quiet. -/
theorem Quiet.silenced {program : Program α} (h : program.Quiet) : program.silenced.Quiet :=
  Follows.silenced h fun _ _ _ _ => rfl

/-- A quiet program asks nothing, so it leaves the lock alone. -/
theorem Quiet.reports {program : Program α} (h : program.Quiet) (environment : Environment σ)
    (state : σ) :
    ∀ interaction ∈ program.dialogue environment state, ∃ count, interaction = .report count := by
  obtain ⟨_, haccepted, -⟩ := Follows.run h environment state
  generalize program.dialogue environment state = dialogue at haccepted
  induction dialogue with
  | nil => simp
  | cons first rest ih =>
      rw [List.foldlM_cons] at haccepted
      obtain ⟨_, hfirst, hrest⟩ := Option.bind_eq_some_iff.mp haccepted
      rintro interaction (_ | ⟨_, hmem⟩)
      · cases first with
        | report count => exact ⟨count, rfl⟩
        | acquire | release | arm | await | call => simp [Interaction.reportsOnly] at hfirst
      · exact ih hrest interaction hmem

end Program

namespace Action

/-- A check is quiet if what follows it is. -/
theorem quiet_ofExcept_bind {β : Type} {result : Except Fault α} {next : α → Action β}
    (h : ∀ value, (next value).Quiet) : Action.Quiet (MonadExcept.ofExcept result >>= next) := by
  cases result with
  | ok value => exact h value
  | error fault => exact Program.quiet_pure _

/-- A check whose value is not used is quiet if what follows it is. -/
theorem quiet_check_bind {β : Type} {result : Except Fault α} {next : Action β}
    (h : next.Quiet) :
    Action.Quiet (discard (MonadExcept.ofExcept result : Action α) >>= fun _ => next) := by
  cases result with
  | ok value => exact h
  | error fault => exact Program.quiet_pure _

end Action

namespace Operation

/-- The bytes that an operation on a range is to read, write or erase. -/
def count? : Operation → Option Nat
  | read _ length | readReporting _ length | readMetered _ length | readSector _ length
  | eraseRange _ length | eraseRangeReporting _ length | eraseRangeMetered _ length => some length
  | readInto _ bytes | write _ bytes | writeReporting _ bytes | writeMetered _ bytes
  | writeSector _ bytes => some bytes.length
  | _ => none

end Operation

namespace Engine

variable (engine : Engine)

/-- A read into an empty buffer is quiet. -/
theorem quiet_readInto_nil (address : UInt32) : (engine.readInto address []).Quiet := by
  unfold readInto
  split <;> exact Program.quiet_pure _

/-- A read of nothing is quiet. -/
theorem quiet_read_zero (address : UInt32) : (engine.read address 0).Quiet := by
  refine Action.quiet_check_bind (Action.quiet_ofExcept_bind fun _ => ?_)
  refine Program.Quiet.bind (Program.Quiet.bind (engine.quiet_readInto_nil address) fun _ =>
    Program.quiet_pure _) fun result => ?_
  obtain fault | ⟨outcome, bytes⟩ := result
  · exact Program.quiet_pure _
  · cases outcome <;> exact Program.quiet_pure _

/-- A read of nothing in parts is quiet. -/
theorem quiet_readReporting_zero (address : UInt32) : (engine.readReporting address 0).Quiet :=
  Action.quiet_check_bind (Action.quiet_ofExcept_bind fun _ => ⟨(), rfl, (), rfl, trivial⟩)

/-- A write of nothing is quiet. -/
theorem quiet_writeReporting_nil (address : UInt32) : (engine.writeReporting address []).Quiet :=
  Action.quiet_check_bind (Program.quiet_pure _)

/-- An erase of nothing is quiet. -/
theorem quiet_eraseRangeReporting_zero (address : UInt32) :
    (engine.eraseRangeReporting address 0).Quiet :=
  Action.quiet_check_bind (Program.quiet_pure _)

/-- An operation on an empty range asks nothing. -/
theorem quiet_perform_of_empty {operation : Operation} (h : operation.count? = some 0) :
    (engine.perform operation).Quiet := by
  cases operation with
  | read address length =>
      obtain rfl := Option.some.inj h
      exact (engine.quiet_read_zero address).map _
  | readInto address buffer =>
      obtain rfl := List.length_eq_zero_iff.mp (Option.some.inj h)
      exact (engine.quiet_readInto_nil address).bind fun _ => Program.quiet_pure _
  | readReporting address length =>
      obtain rfl := Option.some.inj h
      exact (engine.quiet_readReporting_zero address).map _
  | readMetered address length =>
      obtain rfl := Option.some.inj h
      exact (engine.quiet_readReporting_zero address).silenced.map _
  | readSector sector length =>
      obtain rfl := Option.some.inj h
      exact Program.Quiet.map (Action.quiet_ofExcept_bind fun address =>
        engine.quiet_read_zero address) _
  | write address bytes | writeMetered address bytes =>
      obtain rfl := List.length_eq_zero_iff.mp (Option.some.inj h)
      exact (engine.quiet_writeReporting_nil address).silenced.map _
  | writeReporting address bytes =>
      obtain rfl := List.length_eq_zero_iff.mp (Option.some.inj h)
      exact (engine.quiet_writeReporting_nil address).map _
  | writeSector sector bytes =>
      obtain rfl := List.length_eq_zero_iff.mp (Option.some.inj h)
      exact Program.Quiet.map (Action.quiet_ofExcept_bind fun address =>
        (engine.quiet_writeReporting_nil address).silenced) _
  | eraseRange address length =>
      obtain rfl := Option.some.inj h
      exact (engine.quiet_eraseRangeReporting_zero address).silenced.map _
  | eraseRangeReporting address length =>
      obtain rfl := Option.some.inj h
      exact (engine.quiet_eraseRangeReporting_zero address).map _
  | eraseRangeMetered address length =>
      obtain rfl := Option.some.inj h
      exact Program.Quiet.map (Action.quiet_check_bind (Action.quiet_ofExcept_bind fun _ =>
        (engine.quiet_eraseRangeReporting_zero address).silenced)) _
  | _ => simp [Operation.count?] at h

/-! ## Runs of requests -/

/-- A run of requests, each made with timeouts of its own: their outcomes, and the engine
afterwards. -/
def serveAll (engine : Engine) : List (Timeouts × EngineRequest) → Program (List Outcome × Engine)
  | [] => return ([], engine)
  | (timeouts, request) :: rest => do
      let (outcome, engine) ← { engine with timeouts }.serve request
      let (outcomes, engine) ← engine.serveAll rest
      return (outcome :: outcomes, engine)

/-- Between the requests of a run, and after it, nobody holds the bus. -/
theorem follows_serveAll (requests : List (Timeouts × EngineRequest)) :
    (engine.serveAll requests).Follows Custody.next (fun _ after => after = .away) .away := by
  induction requests generalizing engine with
  | nil => rfl
  | cons first rest ih =>
      obtain ⟨timeouts, request⟩ := first
      refine Program.Follows.bind (checked_serve { engine with timeouts } request).follows
        fun ended after hafter => ?_
      subst hafter
      refine Program.Follows.bind (ih ended.2) fun last after hafter => ?_
      subst hafter
      rfl

end Engine

/-- A request that is rejected, or that is for an empty range, makes reports at most and leaves the
lock alone. -/
theorem Environment.Guards.serve_asksNothing {environment : Environment σ}
    {slot : σ → Option BusState} (hguards : environment.Guards slot) (engine : Engine)
    (request : EngineRequest) (state : σ)
    (h : ((engine.serve request).run environment state).1.1.Rejected ∨
      ∃ operation, request = .operation operation ∧ operation.count? = some 0) :
    (∀ interaction ∈ (engine.serve request).dialogue environment state,
      ∃ count, interaction = .report count) ∧
      slot ((engine.serve request).run environment state).2 = slot state := by
  have hreports : ∀ interaction ∈ (engine.serve request).dialogue environment state,
      ∃ count, interaction = .report count := by
    obtain hrejected | ⟨operation, rfl, hempty⟩ := h
    · rw [((engine.checked_serve request).untouched hrejected).1]
      simp
    · exact ((engine.quiet_perform_of_empty hempty).map fun outcome => (outcome, engine)).reports
        environment state
  -- Reports leave what lies in the lock as it is.
  refine ⟨hreports, (hguards.honest _ state).2.trans ?_⟩
  generalize (engine.serve request).dialogue environment state = dialogue at hreports
  induction dialogue with
  | nil => rfl
  | cons first rest ih =>
      obtain ⟨count, rfl⟩ := hreports first List.mem_cons_self
      exact ih fun interaction hmem => hreports interaction (List.mem_cons_of_mem _ hmem)

/-- A program that keeps to the rule suits a controller that is mapped as the bus in the lock says,
and leaves a bus in the lock that says how it is mapped then. -/
theorem Environment.Guards.tracks {environment : Environment σ} {slot : σ → Option BusState}
    (hguards : environment.Guards slot) {program : Program α}
    (h : program.Follows Custody.next (fun _ after => after = .away) .away) {state : σ}
    {bus : BusState} (hbus : slot state = some bus) :
    let dialogue := program.dialogue environment state
    dialogue.Throughout Interaction.maps Interaction.Suits bus.mapped ∧
      ∃ last, slot (program.run environment state).2 = some last ∧
        last.mapped = dialogue.foldl Interaction.maps bus.mapped := by
  intro dialogue
  obtain ⟨_, haccepted, rfl⟩ := h.run environment state
  obtain ⟨hhonest, hslot⟩ := hguards.honest program state
  obtain ⟨hsuits, last, hlast, hmapped⟩ :=
    Dialogue.suits_of_accepted haccepted hhonest ⟨bus, hbus, rfl⟩
  exact ⟨hsuits, last, hslot.trans hlast, hmapped⟩

/-- In any surroundings with a lock that only the engine uses, over a run of any requests with any
answers of the controller: the flag in the lock is set exactly if a call has mapped the controller
and it has not been aborted since, whenever the bus is given back and at the end. A mapped
controller is asked for nothing but an abort. A request that is rejected, or that is for an empty
range, leaves the mapping in place. On a bench the flag is always the chip's. -/
theorem mapping_left_first (environment : Environment σ) {slot : σ → Option BusState}
    (hguards : environment.Guards slot) (engine : Engine)
    (requests : List (Timeouts × EngineRequest)) {state : σ} (hstart : slot state = some .fresh) :
    let program := engine.serveAll requests
    let dialogue := program.dialogue environment state
    let ended := program.run environment state
    (∃ bus, slot ended.2 = some bus ∧ (bus.mapped = true ↔ dialogue.EndsMapped)) ∧
    (∀ before bus rest, dialogue = before ++ .release bus :: rest →
      (bus.mapped = true ↔ Dialogue.EndsMapped before)) ∧
    (∀ before request reply rest, dialogue = before ++ .call request reply :: rest →
      Dialogue.EndsMapped before → request = .abort) ∧
    (∀ (last : Engine) request, let program := last.serve request
      ((program.run environment ended.2).1.1.Rejected ∨
          ∃ operation, request = .operation operation ∧ operation.count? = some 0) →
        (∀ interaction ∈ program.dialogue environment ended.2,
          ∃ count, interaction = .report count) ∧
          slot (program.run environment ended.2).2 = slot ended.2) ∧
    ∀ bench : Bench, bench.bus = some .fresh → bench.chip.mapped = false →
      ∃ bus, (program.run Bench.environment bench).2.bus = some bus ∧
        bus.mapped = (program.run Bench.environment bench).2.chip.mapped := by
  intro program dialogue ended
  have hfollows := engine.follows_serveAll requests
  obtain ⟨hsuits, last, hlast, hmapped⟩ := hguards.tracks hfollows hstart
  have hsplits : ∀ before interaction rest, dialogue = before ++ interaction :: rest →
      interaction.Suits (Dialogue.mapped before) := by
    intro before interaction rest hsplit
    have hwhole : Dialogue.Throughout Interaction.maps Interaction.Suits false
        (before ++ interaction :: rest) := by
      rw [← hsplit]
      exact hsuits
    exact hwhole.of_split
  refine ⟨⟨last, hlast, ?_⟩, fun before bus rest hsplit => ?_,
    fun before request reply rest hsplit hbefore => ?_,
    fun last request h => hguards.serve_asksNothing last request _ h,
    fun bench hbus hunmapped => ?_⟩
  · rw [hmapped]
    exact Dialogue.mapped_iff dialogue
  · have hflag : bus.mapped = Dialogue.mapped before := hsplits _ _ _ hsplit
    rw [hflag]
    exact Dialogue.mapped_iff before
  · have hcall : request = .abort ∨ Dialogue.mapped before = false := hsplits _ _ _ hsplit
    exact hcall.resolve_right (by simp [(Dialogue.mapped_iff before).mpr hbefore])
  · obtain ⟨-, last, hlast, hmapped⟩ := Bench.guards_environment.tracks hfollows hbus
    refine ⟨last, hlast, hmapped.trans ?_⟩
    rw [Bench.mapped_run, hunmapped]
    rfl

/-- A chip that is mapped, read and mapped again stays mapped when a read of nothing follows. -/
theorem mapping_left_first_of_mapped_read :
    let requests : List (Timeouts × EngineRequest) :=
      [(.standard, .bringUp), (.standard, .operation .enterMapped),
        (.standard, .operation (.read 0 1)), (.standard, .operation .enterMapped),
        (.standard, .operation (.read 0 0))]
    let bench := (Bench.ofChip (Chip.fresh ⟨0xEF, 0x4015⟩)).attach
    let program := (Engine.fresh .standard).serveAll requests
    Bench.environment.Guards Bench.bus ∧ bench.bus = some .fresh ∧
      Dialogue.EndsMapped (program.dialogue Bench.environment bench) := by
  intro requests bench program
  have hended : (program.run Bench.environment bench).2.bus = some ⟨.quad, true⟩ := by
    decide +kernel
  obtain ⟨⟨bus, hbus, hmapped⟩, -⟩ :=
    mapping_left_first Bench.environment Bench.guards_environment (.fresh .standard) requests
      (show bench.bus = some .fresh from rfl)
  have hflag : bus.mapped = true := by
    rw [Option.some.inj (hbus.symm.trans hended)]
  exact ⟨Bench.guards_environment, rfl, hmapped.mp hflag⟩

end NorFlash
