import NorFlash.Engine.Read
import NorFlash.Proofs.Bench.Command
import NorFlash.Proofs.Bench.Invariants
import NorFlash.Proofs.Chip.Calm

/-!
# Runs in which failures come and go

`Bench.upsetting` is a bench on which failures and completions are set up anew before each request
of a program. `Program.Shadows` says of a program that if it succeeds there, then it does what it
would have done on a bench where nothing fails and every completion is reported at once. So what is
known of a program that succeeds on a calm bench holds of it however failures come and go.
`Program.Orderly.keeps_upsetting` is about a program that may as well fail: what its calls cannot
change is as before.
-/

namespace NorFlash

variable {α β : Type}

namespace Bench

/-- The bench with the chip's failures and completions set up anew. -/
def upset (bench : Bench) (setting : Chip → FailurePlan × CompletionMode) : Bench :=
  { bench with chip := bench.chip.upset (setting bench.chip) }

/-- How a bench answers on which failures and completions are set up anew before each request. -/
def upsetting (settings : Nat → Chip → FailurePlan × CompletionMode) : Environment (Bench × Nat) :=
  environment.disturbed fun count bench => bench.upset (settings count)

/-- The failures and the completions that a chip comes with are one way to set them up. -/
theorem run_upsetting_own (program : Program α) (bench : Bench) (count : Nat) :
    let ended := program.run (upsetting fun _ chip => (chip.plan, chip.completion)) (bench, count)
    (ended.1, ended.2.1) = program.run environment bench :=
  program.run_disturbed (fun _ _ => rfl) environment bench count

/-- The second bench has the chip of the first, on which nothing fails, and the same bus. -/
structure Calms (bench calm : Bench) : Prop where
  chip : calm.chip = bench.chip.calm
  bus : calm.bus = bench.bus

/-- The bench with the chip's failures taken back, and completions reported at once. -/
def calmed (bench : Bench) : Bench :=
  { bench with chip := bench.chip.calm }

/-- The calm version of a bench is one that nothing fails on. -/
theorem calms_calmed (bench : Bench) : bench.Calms bench.calmed :=
  ⟨rfl, rfl⟩

variable {bench calm : Bench}

/-- Setting failures up anew does not touch what is compared with the calm bench. -/
theorem Calms.upset (h : bench.Calms calm) (setting : Chip → FailurePlan × CompletionMode) :
    (bench.upset setting).Calms calm :=
  ⟨h.chip, h.bus⟩

/-- A call that succeeds is answered on the calm bench alike. -/
theorem Calms.call (h : bench.Calms calm) {request : BusCall} {received : Option Bytes}
    (hreply : (bench.call request).1 = .ok received) :
    (calm.call request).1 = .ok received ∧
      (bench.call request).2.Calms (calm.call request).2 := by
  have hanswer := Chip.answer_calm_of_ok (show (bench.chip.answer request).1.reply = _ from hreply)
  rw [← h.chip] at hanswer
  refine ⟨(congrArg (·.1.reply) hanswer).trans hreply, ?_, ?_⟩
  · rw [chip_call, chip_call, hanswer]
  · rw [bus_call, bus_call, h.bus]

/-- Waiting keeps the two benches alike. -/
theorem Calms.await (h : bench.Calms calm) (patience : Nat) :
    (bench.await patience).2.Calms (calm.await patience).2 :=
  ⟨by rw [chip_await, chip_await, h.chip], by rw [bus_await, bus_await, h.bus]⟩

end Bench

/-- The result is a failure. -/
def Failed : Except Fault α → Prop
  | .ok _ => False
  | .error _ => True

/-- As `Failed`, where what the exchange came to is the value. -/
def FailedExchange : Except Fault (Option Bytes × Except Fault Unit) → Prop
  | .ok ended => Failed ended.2
  | .error _ => True

/-- As `Failed`, where how the read ended is a part of the value. -/
def FailedRead : Except Fault (Except Fault Unit × Bytes) → Prop
  | .ok ended => Failed ended.1
  | .error _ => True

variable (settings : Nat → Chip → FailurePlan × CompletionMode)

/-- However failures come and go, the program fails, or it does what it does on a calm bench. -/
def Program.Shadows (failed : α → Prop) (program : Program α) : Prop :=
  ∀ bench count calm, bench.Calms calm →
    program.Ends (Bench.upsetting settings)
      (fun value after => failed value ∨
        value = (program.run Bench.environment calm).1 ∧
          after.1.Calms (program.run Bench.environment calm).2) (bench, count)

/-- As `Program.Shadows`, for an action that fails with a fault. -/
def Action.Shadows (action : Action α) : Prop :=
  Program.Shadows settings Failed action.run

/-- As `Action.Shadows`, while the bus is held. -/
def BusAction.Shadows (action : BusAction α) : Prop :=
  ∀ bus, Program.Shadows settings (fun ended => Failed ended.1) (action.run.run bus)

variable {settings}

namespace Program

variable {failed : α → Prop} {fails : β → Prop} {program : Program α} {next : α → Program β}

/-- A program that does nothing does so anywhere. -/
theorem shadows_pure (value : α) : Shadows settings failed (pure value : Program α) :=
  fun _ _ _ hcalm => .inr ⟨rfl, hcalm⟩

/-- A program that goes on may fail in either part, if a failure of the first makes the second
fail. -/
theorem Shadows.bind (h : program.Shadows settings failed)
    (hnext : ∀ value, (next value).Shadows settings fails)
    (hfailed : ∀ value state, failed value →
      (next value).Ends (Bench.upsetting settings) (fun ended _ => fails ended) state) :
    (program >>= next).Shadows settings fails := by
  intro bench count calm hcalm
  rw [ends_bind]
  refine (h bench count calm hcalm).mono ?_
  rintro value ⟨after, counted⟩ (hvalue | ⟨rfl, hafter⟩)
  · exact (hfailed value _ hvalue).mono fun _ _ => .inl
  · rw [run_bind]
    exact hnext _ after counted _ hafter

/-- On a calm bench a deferred command that is answered is complete at once. -/
theorem run_exchange_calm {calm : Bench} {command : Command} {received : Option Bytes}
    (hcompletion : calm.chip.completion = .immediate)
    (hreply : (calm.arm.call (.start command)).1 = .ok received) (patience : Nat) :
    (exchange (.start command) patience).run Bench.environment calm =
      ((received, .ok ()), ((calm.arm.call (.start command)).2.await patience).2) := by
  have hanswer : (calm.chip.answer (.start command)).1.reply = .ok received := hreply
  have hcompletes : (calm.chip.answer (.start command)).1.completes = true :=
    congrArg Except.isOk hanswer
  have hdone : (calm.arm.call (.start command)).2.event.done = true :=
    Bench.done_call hcompletion hcompletes
  have harrived : ((calm.arm.call (.start command)).2.await patience).1 = true := by
    simp [Bench.await, hdone]
  rw [run_exchange_ok calm (.start command) patience hanswer, if_pos harrived]

section Steps

variable {post : α → Bench × Nat → Prop} {bench : Bench} {count : Nat}

/-- To ask for the bus sets failures up anew first. -/
theorem ends_acquire_upsetting (patience : Nat) (next : Option BusState → Program α) :
    (Program.acquire patience next).Ends (Bench.upsetting settings) post (bench, count) ↔
      (next bench.bus).Ends (Bench.upsetting settings) post
        ({ bench.upset (settings count) with bus := none }, count + 1) :=
  Iff.rfl

/-- To give the bus back sets failures up anew first. -/
theorem ends_release_upsetting (bus : BusState) (next : Program α) :
    (Program.release bus next).Ends (Bench.upsetting settings) post (bench, count) ↔
      next.Ends (Bench.upsetting settings) post
        ({ bench.upset (settings count) with bus := some bus }, count + 1) :=
  Iff.rfl

/-- To begin a new operation sets failures up anew first. -/
theorem ends_arm_upsetting (next : Program α) :
    (Program.arm next).Ends (Bench.upsetting settings) post (bench, count) ↔
      next.Ends (Bench.upsetting settings) post
        ((bench.upset (settings count)).arm, count + 1) :=
  Iff.rfl

/-- A call sets failures up anew first. -/
theorem ends_call_upsetting (request : BusCall) (next : Reply → Program α) :
    (Program.call request next).Ends (Bench.upsetting settings) post (bench, count) ↔
      (next ((bench.upset (settings count)).call request).1).Ends (Bench.upsetting settings) post
        (((bench.upset (settings count)).call request).2, count + 1) :=
  Iff.rfl

/-- A wait sets failures up anew first. -/
theorem ends_await_upsetting (patience : Nat) (next : Bool → Program α) :
    (Program.await patience next).Ends (Bench.upsetting settings) post (bench, count) ↔
      (next ((bench.upset (settings count)).await patience).1).Ends (Bench.upsetting settings) post
        (((bench.upset (settings count)).await patience).2, count + 1) :=
  Iff.rfl

end Steps

/-- A deferred command is carried out on the calm bench alike, and completes there. -/
theorem shadows_exchange (command : Command) (patience : Nat) :
    (exchange (.start command) patience).Shadows settings fun ended => Failed ended.2 := by
  intro bench count calm hcalm
  have hissued : ((bench.upset (settings count)).arm.upset (settings (count + 1))).Calms calm.arm :=
    ⟨hcalm.chip, hcalm.bus⟩
  generalize hcalmRun : (exchange (.start command) patience).run Bench.environment calm = calmed
  unfold exchange
  rw [ends_arm_upsetting, ends_call_upsetting]
  cases hcalled : (((bench.upset (settings count)).arm.upset (settings (count + 1))).call
      (.start command)).1 with
  | error cause => exact Or.inl trivial
  | ok received =>
      obtain ⟨hreply, hafter⟩ := hissued.call hcalled
      have hawaited := (hafter.upset (settings (count + 2))).await patience
      have hcompletion : calm.chip.completion = .immediate := by
        rw [hcalm.chip]
        rfl
      rw [run_exchange_calm hcompletion hreply patience] at hcalmRun
      subst hcalmRun
      rw [ends_await_upsetting]
      cases ((((bench.upset (settings count)).arm.upset (settings (count + 1))).call
          (.start command)).2.upset (settings (count + 2))).await patience |>.1 with
      | false => exact Or.inl trivial
      | true => exact Or.inr ⟨rfl, hawaited⟩

end Program

/-- However failures come and go, a run of an orderly program keeps what neither its calls nor the
setting up of failures can change, and the bus is free again. -/
theorem Program.Orderly.keeps_upsetting {calls : BusCall → Prop} {widths : BusWidth → Prop}
    {values : α → Prop} {property : Chip → Prop} {program : Program α} {bench : Bench}
    (h : program.Orderly calls widths false values false)
    (hcall : ∀ request chip, calls request → property chip → property (chip.answer request).2)
    (hupset : ∀ chip setting, property chip → property (chip.upset setting))
    (hfree : bench.Free widths) (hproperty : property bench.chip) (count : Nat) :
    program.Ends (Bench.upsetting settings)
      (fun _ after => property after.1.chip ∧ after.1.Free widths) (bench, count) := by
  let kept (chip : Chip) (_ : Array TraceEntry) : Prop := property chip
  have hbench : bench.Keeps widths kept false := ⟨hproperty, hfree⟩
  have hdisturb : ∀ count held (bench : Bench), bench.Keeps widths kept held →
      (bench.upset (settings count)).Keeps widths kept held :=
    fun count _ bench hkept => ⟨hupset bench.chip (settings count bench.chip) hkept.1, hkept.2⟩
  have hanswer : ∀ request chip trace, calls request → kept chip trace →
      kept (chip.answer request).2
        (trace.push (.call request !(chip.answer request).1.reply.isOk)) :=
    fun request chip _ => hcall request chip
  exact (h.run_disturbed hanswer hdisturb hbench count).mono fun _ _ hafter => hafter.2

/-- However failures come and go, a chip that is awake keeps its mode if nothing sent changes it. -/
theorem Program.Orderly.mode_upsetting {codes : List UInt8} {widths : BusWidth → Prop}
    {values : α → Prop} {program : Program α} {bench : Bench}
    (h : program.Orderly (BusCall.Among codes) widths false values false)
    (hcodes : Instruction.NoneAmong Instruction.changesMode codes)
    (hawake : bench.chip.asleep = false) (hfree : bench.Free widths) (count : Nat) :
    program.Ends (Bench.upsetting settings)
      (fun _ after => after.1.chip.mode = bench.chip.mode ∧ after.1.Free widths)
      (bench, count) := by
  let same (chip : Chip) : Prop := chip.mode = bench.chip.mode
  have hcall : ∀ request chip, BusCall.Among codes request → same chip →
      same (chip.answer request).2 := fun _ _ => Chip.mode_answer_among hcodes hawake
  exact h.keeps_upsetting hcall (fun _ _ hchip => hchip) hfree rfl count

namespace Action

variable {action : Action α}

/-- However failures come and go, an action that succeeds ends as it would have on the calm
bench. -/
theorem Shadows.ends {ok : α → Bench → Prop} {bad : Fault → Bench → Prop} {bench : Bench}
    (h : action.Shadows settings) (hcalm : action.Ends Bench.environment ok bad bench.calmed)
    (count : Nat) :
    action.Ends (Bench.upsetting settings)
      (fun value after => ∃ calm, after.1.Calms calm ∧ ok value calm) (fun _ _ => True)
      (bench, count) := by
  refine Program.Ends.mono (h bench count _ bench.calms_calmed) ?_
  rintro (fault | value) after (hfailed | ⟨hvalue, hafter⟩)
  · trivial
  · trivial
  · exact hfailed.elim
  · refine ⟨_, hafter, ?_⟩
    unfold Action.Ends Program.Ends at hcalm
    rwa [← hvalue] at hcalm

/-- An action that does nothing does so anywhere. -/
theorem shadows_pure (value : α) : Action.Shadows settings (pure value) :=
  Program.shadows_pure _

/-- An action that fails may do so anywhere. -/
theorem shadows_throw (fault : Fault) : Action.Shadows settings (throw fault : Action α) :=
  Program.shadows_pure _

/-- A check that has been made comes out alike anywhere. -/
theorem shadows_ofExcept (result : Except Fault α) :
    Action.Shadows settings (MonadExcept.ofExcept result) := by
  cases result <;> exact Program.shadows_pure _

/-- An action that goes on does what it would on a calm bench, if both its parts do. -/
theorem Shadows.bind {next : α → Action β} (h : action.Shadows settings)
    (hnext : ∀ value, (next value).Shadows settings) :
    Action.Shadows settings (action >>= next) := by
  refine Program.Shadows.bind h (fun result => ?_) fun result state hfailed => ?_
  · cases result with
    | ok value => exact hnext value
    | error fault => exact Program.shadows_pure _
  · cases result with
    | ok value => exact hfailed.elim
    | error fault => exact hfailed

/-- Whether the value is used does not matter. -/
theorem Shadows.discard (h : action.Shadows settings) : Action.Shadows settings (discard action) :=
  h.bind fun _ => shadows_pure ()

/-- A call that succeeds is answered as on a calm bench. -/
theorem shadows_call (request : BusCall) : (Action.call request).Shadows settings := by
  intro bench count calm hcalm
  generalize hcalmRun : (Action.call request).run.run Bench.environment calm = calmed
  unfold Action.call
  rw [ExceptT.run_mk, Program.ends_call_upsetting]
  cases hcalled : ((bench.upset (settings count)).call request).1 with
  | error cause => exact Or.inl trivial
  | ok received =>
      obtain ⟨hreply, hafter⟩ := (hcalm.upset (settings count)).call hcalled
      have hrun := run_call calm request
      have hanswer : (calm.chip.answer request).1.reply = .ok received := hreply
      rw [hcalmRun, hanswer] at hrun
      subst hrun
      exact Or.inr ⟨rfl, hafter⟩

/-- An abort cannot fail. -/
theorem shadows_abort : Program.Shadows settings (fun _ => False) Action.abort.run := by
  intro bench count calm hcalm
  have hreply : ((bench.upset (settings count)).call .abort).1 = .ok none := rfl
  exact Or.inr ⟨rfl, ((hcalm.upset (settings count)).call hreply).2⟩

end Action

namespace BusAction

variable {action : BusAction α}

/-- While the bus is held, too, doing nothing is the same anywhere. -/
theorem shadows_pure (value : α) : BusAction.Shadows settings (pure value) :=
  fun _ => Program.shadows_pure _

/-- An action that goes on holding the bus does what it would on a calm bench, if both its parts
do. -/
theorem Shadows.bind {next : α → BusAction β} (h : action.Shadows settings)
    (hnext : ∀ value, (next value).Shadows settings) :
    BusAction.Shadows settings (action >>= next) := by
  intro bus
  refine Program.Shadows.bind (h bus) (fun ended => ?_) fun ended state hfailed => ?_
  · obtain ⟨result, after⟩ := ended
    cases result with
    | ok value => exact hnext value after
    | error fault => exact Program.shadows_pure _
  · obtain ⟨result, after⟩ := ended
    cases result with
    | ok value => exact hfailed.elim
    | error fault => exact hfailed

/-- What is recorded of the bus does not depend on failures. -/
theorem shadows_modify (change : BusState → BusState) :
    BusAction.Shadows settings (modify change) :=
  fun _ => Program.shadows_pure _

/-- An action that does what it would on a calm bench also does while the bus is held. -/
theorem shadows_lift {action : Action α} (h : action.Shadows settings) :
    BusAction.Shadows settings (lift action) :=
  fun _ => Program.Shadows.bind h (fun _ => Program.shadows_pure _) fun _ _ hfailed => hfailed

/-- A deferred command that succeeds is answered and completed as on a calm bench. -/
theorem shadows_exchange (command : Command) (patience : Nat) (bus : BusState) :
    Program.Shadows settings (fun ended => FailedExchange ended.1)
      ((lift (liftM (Program.exchange (.start command) patience))).run.run bus) := by
  have hlifted : Program.Shadows settings FailedExchange
      (liftM (Program.exchange (.start command) patience) :
        Action (Option Bytes × Except Fault Unit)).run :=
    Program.Shadows.bind (Program.shadows_exchange command patience)
      (fun _ => Program.shadows_pure _) fun _ _ hfailed => hfailed
  exact Program.Shadows.bind hlifted (fun _ => Program.shadows_pure _) fun _ _ hfailed => hfailed

/-- A transfer that succeeds comes out as on a calm bench. -/
theorem shadows_transfer (command : Command) (patience : Nat) :
    (transfer (.start command) patience).Shadows settings := by
  intro bus
  refine Program.Shadows.bind (shadows_exchange command patience bus) (fun ended => ?_)
    fun ended state hfailed => ?_
  · obtain ⟨fault | ⟨received, fault | _⟩, after⟩ := ended <;> exact Program.shadows_pure _
  · obtain ⟨fault | ⟨received, fault | _⟩, after⟩ := ended
    · trivial
    · trivial
    · exact hfailed.elim

/-- A mapping that is left is left as on a calm bench. -/
theorem shadows_leaveMapped : leaveMapped.Shadows settings := by
  rintro ⟨width, mapped⟩
  cases mapped with
  | false => exact Program.shadows_pure _
  | true =>
      show Program.Shadows _ _ (Action.abort.run >>= fun _ =>
        pure ((Except.ok () : Except Fault Unit), BusState.mk width false))
      exact Program.Shadows.bind Action.shadows_abort (fun _ => Program.shadows_pure _)
        fun _ _ hfailed => hfailed.elim

end BusAction

namespace Engine

variable {engine : Engine} {action : BusAction α}

/-- Taking the bus for an action fails as busy, or leaves it to the action. -/
theorem shadows_holdingBus {failed : Except Fault α → Prop} (hbusy : failed (.error .busy))
    (h : ∀ bus, Program.Shadows settings (fun ended => failed ended.1) (action.run.run bus)) :
    Program.Shadows settings failed (engine.holdingBus action).run := by
  have hgiven (bus : BusState) : Program.Shadows settings failed (do
      let ended ← action.run.run bus
      Program.release ended.2 (.done ended.1)) := by
    refine Program.Shadows.bind (h bus) (fun ended => ?_) fun _ _ hfailed => hfailed
    exact fun bench count calm hcalm => Or.inr ⟨rfl, hcalm.chip, rfl⟩
  intro bench count calm hcalm
  have htaken : { bench.upset (settings count) with bus := none }.Calms
      { calm with bus := none } :=
    ⟨hcalm.chip, rfl⟩
  cases hbus : bench.bus with
  | none =>
      have hended : (engine.holdingBus action).run.run (Bench.upsetting settings) (bench, count) =
          (.error .busy, { bench.upset (settings count) with bus := none }, count + 1) := by
        simp only [holdingBus, ExceptT.run_mk, Program.run, Bench.upsetting,
          Environment.disturbed, Bench.environment, Bench.upset, hbus]
      rw [Program.Ends, hended]
      exact Or.inl hbusy
  | some bus =>
      have hended : (engine.holdingBus action).run.run (Bench.upsetting settings) (bench, count) =
          (do let ended ← action.run.run bus
              Program.release ended.2 (.done ended.1)).run (Bench.upsetting settings)
            ({ bench.upset (settings count) with bus := none }, count + 1) := by
        simp only [holdingBus, ExceptT.run_mk, Program.run, Bench.upsetting,
          Environment.disturbed, Bench.environment, Bench.upset, hbus]
      have hcalmEnded : (engine.holdingBus action).run.run Bench.environment calm =
          (do let ended ← action.run.run bus
              Program.release ended.2 (.done ended.1)).run Bench.environment
            { calm with bus := none } := by
        simp only [holdingBus, ExceptT.run_mk, Program.run, Bench.environment, hcalm.bus, hbus]
      rw [Program.Ends, hended, hcalmEnded]
      exact hgiven bus _ _ _ htaken

/-- An action that does what it would on a calm bench also does with the bus taken for it. -/
theorem shadows_withBus (h : action.Shadows settings) : (engine.withBus action).Shadows settings :=
  shadows_holdingBus trivial (BusAction.shadows_leaveMapped.bind fun _ => h)

/-- What an exchange came to is a value of a fetch, which tells whether it failed. -/
theorem shadows_fetch (device : Descriptor) (address : UInt32) (length : Nat) :
    Program.Shadows settings FailedExchange (engine.fetch device address length).run := by
  refine shadows_holdingBus trivial fun bus => ?_
  refine Program.Shadows.bind (BusAction.shadows_leaveMapped bus) (fun ended => ?_)
    fun ended state hfailed => ?_
  · obtain ⟨fault | _, after⟩ := ended
    · exact Program.shadows_pure _
    · exact BusAction.shadows_exchange _ _ after
  · obtain ⟨fault | _, after⟩ := ended
    · trivial
    · exact hfailed.elim

/-- Whether a read failed is a value of it too. -/
theorem shadows_readInto (address : UInt32) (buffer : Bytes) :
    Program.Shadows settings (fun ended => Failed ended.1) (engine.readInto address buffer) := by
  unfold readInto
  split
  · exact Program.shadows_pure _
  · rename_i device _
    split
    · exact Program.shadows_pure _
    · split
      · exact Program.shadows_pure _
      · refine Program.Shadows.bind (engine.shadows_fetch device address buffer.length)
          (fun result => ?_) fun result state hfailed => ?_
        · cases result <;> exact Program.shadows_pure _
        · obtain fault | ended := result
          · trivial
          · exact hfailed

/-- A read into zeros that succeeds delivers what it would on a calm bench. -/
theorem shadows_readZeroed (address : UInt32) (length : Nat) :
    (engine.readZeroed address length).Shadows settings := by
  have hlifted : Program.Shadows settings FailedRead
      (liftM (engine.readInto address (List.replicate length 0)) :
        Action (Except Fault Unit × Bytes)).run :=
    Program.Shadows.bind (engine.shadows_readInto address _) (fun _ => Program.shadows_pure _)
      fun _ _ hfailed => hfailed
  refine Program.Shadows.bind hlifted (fun result => ?_) fun result state hfailed => ?_
  · obtain fault | ⟨fault | _, bytes⟩ := result <;> exact Program.shadows_pure _
  · obtain fault | ⟨fault | _, bytes⟩ := result
    · trivial
    · trivial
    · exact hfailed.elim

/-- A read that succeeds delivers what it would on a calm bench. -/
theorem shadows_read (address : UInt32) (length : Nat) :
    (engine.read address length).Shadows settings :=
  (Action.shadows_ofExcept _).discard.bind fun _ => (Action.shadows_ofExcept _).bind fun _ =>
    engine.shadows_readZeroed address length

end Engine

end NorFlash
