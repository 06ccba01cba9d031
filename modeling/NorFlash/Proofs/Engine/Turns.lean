import NorFlash.Proofs.Engine.Dialogue
import NorFlash.Proofs.Engine.Storing

/-!
# Taking turns for page programs

A write takes the bus for one page at a time. While it holds the bus it follows a script: it enables
writing, programs the page, waits until the chip is idle, and gives the bus back. `Stage.next` is
that rule. Where a write departs from its script something has failed, and nothing is said about
what comes after. `follows_perform` says that every write keeps to the rule, and that one that
succeeds has come to the end of its pages without a failure.
-/

namespace NorFlash

variable {α β : Type}

namespace Engine

/-- The command that programs bytes into a page. -/
def programCommand (width : BusWidth) (address : UInt32) (bytes : Bytes) : Command :=
  ((Command.instruct Opcode.pageProgram.code width).atAddress address width).writing bytes width

end Engine

/-- What is to be said next, and be answered well. -/
inductive Line where
  | abort
  | call (request : BusCall)
  | arm
  | arrival
  | release (bus : BusState)

namespace Line

/-- The interaction is what was to be said, and was answered well. An abort cannot be refused. -/
def meets : Line → Interaction → Bool
  | abort, .call asked _ => asked == .abort
  | call request, .call asked reply => asked == request && reply.isOk
  | arm, .arm => true
  | arrival, .await arrived => arrived
  | release bus, .release given => given == bus
  | _, _ => false

/-- What is said to program a page. -/
def programming (width : BusWidth) (piece : PagePiece) : List Line :=
  [.call (.command (.instruct Opcode.writeEnable.code width)), .arm,
    .call (.start (Engine.programCommand width (UInt32.ofNat piece.address) piece.bytes)),
    .arrival, .arm, .call (.poll (Engine.idlePoll width)), .arrival]

/-- What is said in a turn while the bus is held. The mapping is left first. -/
def body (bus : BusState) (piece : PagePiece) : List Line :=
  (if bus.mapped then [.abort] else []) ++ programming bus.width piece

/-- What is said in a turn, from taking the bus on. -/
def turn (bus : BusState) (piece : PagePiece) : List Line :=
  body bus piece ++ [.release ⟨bus.width, false⟩]

/-- The bus is given back at the end of a turn only. -/
theorem ne_release_of_mem_body {bus given : BusState} {piece : PagePiece} {line : Line}
    (h : line ∈ body bus piece) : line ≠ .release given := by
  rintro rfl
  cases hmapped : bus.mapped <;> simp [body, programming, hmapped] at h

end Line

/-- How far a write has come: what it has to say before it gives the bus back, which is nothing
while it does not hold the bus, and the pages after that. -/
inductive Stage where
  | working (script : List Line) (todo : List PagePiece)
  /-- Something was refused or did not come in time. -/
  | failed

namespace Stage

/-- What may be said in a stage, and the stage after it. -/
def next : Rule Stage
  | stage, .report _ => some stage
  | failed, _ => some failed
  | working [] (piece :: todo), .acquire (some bus) => some (working (Line.turn bus piece) todo)
  | working [] _, .acquire none => some failed
  | working [] _, _ => none
  | working (line :: script) todo, interaction =>
      some (if line.meets interaction then working script todo else failed)

/-- A report leaves any stage as it is. -/
theorem next_report (stage : Stage) (count : Nat) : stage.next (.report count) = some stage := by
  cases stage <;> rfl

/-- A write that has failed stays so. -/
theorem next_failed (interaction : Interaction) : failed.next interaction = some failed := by
  cases interaction <;> rfl

/-- A line that is met leads on, and one that is not is a failure. -/
theorem next_working {line : Line} {script : List Line} {todo : List PagePiece}
    {interaction : Interaction} (h : ∀ count, interaction ≠ .report count) :
    (working (line :: script) todo).next interaction =
      some (if line.meets interaction then working script todo else failed) := by
  cases interaction with
  | report count => exact absurd rfl (h count)
  | _ => rfl

/-- A report makes no difference to the stage. -/
theorem eq_of_next_report {stage after : Stage} {count : Nat}
    (h : stage.next (.report count) = some after) : after = stage :=
  (Option.some.inj ((next_report stage count).symm.trans h)).symm

end Stage

/-! ## Scripts -/

/-- Where an action is once it is over, if it is to get from its script to what follows. -/
def Stage.Reaches (stage : Stage) : Except Fault α → Stage → Prop
  | .ok _, after => after = stage
  | .error _, after => after = failed

/-- The program says the lines, or it fails. -/
def Program.Recites (lines : List Line) (result : α → Except Fault β) (program : Program α) :
    Prop :=
  ∀ script todo, program.Follows Stage.next
    (fun value after => Stage.Reaches (.working script todo) (result value) after)
    (.working (lines ++ script) todo)

/-- The action says the lines while the bus is held, or it fails. It leaves the bus state alone. -/
def BusAction.Recites (bus : BusState) (lines : List Line) (action : BusAction α) : Prop :=
  ∀ script todo, (action.run.run bus).Follows Stage.next
    (fun ended after => Stage.Reaches (.working script todo) ended.1 after ∧ ended.2 = bus)
    (.working (lines ++ script) todo)

namespace Program

/-- A deferred call that is begun, and whose completion arrives. -/
theorem recites_exchange (request : BusCall) (patience : Nat) :
    (exchange request patience).Recites [.arm, .call request, .arrival] Prod.snd := by
  intro script todo
  refine ⟨_, rfl, fun reply => ?_⟩
  cases reply with
  | error cause =>
      exact ⟨.failed, by simp [Stage.next, Line.meets, Except.isOk, Except.toBool],
        fun _ => ⟨.failed, rfl, rfl⟩⟩
  | ok received =>
      refine ⟨.working (.arrival :: script) todo,
        by simp [Stage.next, Line.meets, Except.isOk, Except.toBool], fun arrived => ?_⟩
      cases arrived with
      | true => exact ⟨_, rfl, rfl⟩
      | false => exact ⟨.failed, rfl, fun _ => ⟨.failed, rfl, rfl⟩⟩

end Program

namespace BusAction

variable {bus : BusState} {lines more : List Line} {action : BusAction α}

/-- An action that only returns a value says nothing. -/
theorem recites_pure (value : α) : BusAction.Recites bus [] (pure value) :=
  fun _ _ => ⟨rfl, rfl⟩

/-- Scripts follow one another. -/
theorem Recites.bind {next : α → BusAction β} (h : action.Recites bus lines)
    (hnext : ∀ value, (next value).Recites bus more) :
    BusAction.Recites bus (lines ++ more) (action >>= next) := by
  intro script todo
  rw [List.append_assoc]
  refine Program.Follows.bind (h (more ++ script) todo) ?_
  rintro ⟨result, after⟩ stage ⟨hstage, hbus⟩
  cases result with
  | ok value =>
      obtain rfl : stage = _ := hstage
      obtain rfl : after = bus := hbus
      exact hnext value script todo
  | error fault => exact ⟨hstage, hbus⟩

/-- An action whose value is dropped keeps to its script. -/
theorem Recites.discard (h : action.Recites bus lines) :
    BusAction.Recites bus lines (discard action) := by
  have hbind := h.bind fun _ => recites_pure ()
  rwa [List.append_nil] at hbind

/-- An action that reads the width keeps to the script for the one there is. -/
theorem recites_width_bind {next : BusWidth → BusAction α}
    (h : (next bus.width).Recites bus lines) :
    BusAction.Recites bus lines (BusAction.width >>= next) :=
  h

/-- A call is a script of one line. -/
theorem recites_call (request : BusCall) :
    (BusAction.call request).Recites bus [.call request] := by
  intro script todo reply
  cases reply with
  | error cause =>
      exact ⟨.failed, by simp [Stage.next, Line.meets, Except.isOk, Except.toBool], rfl, rfl⟩
  | ok received =>
      exact ⟨.working script todo, by simp [Stage.next, Line.meets, Except.isOk, Except.toBool],
        rfl, rfl⟩

/-- An instruction is a script of one line. -/
theorem recites_instruct (code : UInt8) (width : BusWidth) :
    (BusAction.instruct code width).Recites bus [.call (.command (.instruct code width))] :=
  (recites_call _).discard

/-- A transfer is an exchange, whose result is what was received. -/
theorem run_transfer (request : BusCall) (patience : Nat) (bus : BusState) :
    (transfer request patience).run.run bus =
      Program.exchange request patience >>= fun ended =>
        pure (ended.2.map fun _ => ended.1, bus) := by
  show ((Program.exchange request patience >>= _) >>= _) >>= _ = _
  rw [bind_assoc, bind_assoc]
  refine congrArg _ (funext fun ended => ?_)
  obtain ⟨received, result | _⟩ := ended
  · rfl
  · rfl

/-- A transfer is begun, called for, and waited for. -/
theorem recites_transfer (request : BusCall) (patience : Nat) :
    (transfer request patience).Recites bus [.arm, .call request, .arrival] := by
  intro script todo
  rw [run_transfer]
  refine Program.Follows.bind (Program.recites_exchange request patience script todo) ?_
  rintro ⟨received, result | _⟩ stage hstage
  · exact ⟨hstage, rfl⟩
  · exact ⟨hstage, rfl⟩

end BusAction

namespace Engine

variable {engine : Engine} {action : BusAction α} {piece : PagePiece} {todo : List PagePiece}

/-- An action that says what is to be said for a page takes a turn. -/
theorem follows_withBus
    (h : ∀ width, action.Recites ⟨width, false⟩ (Line.programming width piece)) :
    (engine.withBus action).run.Follows Stage.next
      (fun result after => Stage.Reaches (.working [] todo) result after)
      (.working [] (piece :: todo)) := by
  -- A mapped bus puts the abort in front of the script, and the action runs unmapped either way.
  have hheld : ∀ (bus : BusState) script,
      ((do BusAction.leaveMapped; action : BusAction α).run.run bus).Follows Stage.next
        (fun ended after => Stage.Reaches (.working script todo) ended.1 after ∧
          ended.2 = ⟨bus.width, false⟩)
        (.working (Line.body bus piece ++ script) todo) := by
    rintro ⟨width, mapped⟩ script
    cases mapped with
    | false => exact h width script todo
    | true => exact fun reply => ⟨_, rfl, h width script todo⟩
  intro bus
  cases bus with
  | none => exact ⟨.failed, rfl, rfl⟩
  | some bus =>
      refine ⟨.working (Line.turn bus piece) todo, rfl, ?_⟩
      refine Program.Follows.bind (hheld bus _) ?_
      rintro ⟨result, last⟩ stage ⟨hstage, hlast⟩
      obtain rfl : last = _ := hlast
      cases result with
      | ok value =>
          obtain rfl : stage = _ := hstage
          exact ⟨_, by simp [Stage.next, Line.meets], rfl⟩
      | error fault =>
          obtain rfl : stage = _ := hstage
          exact ⟨.failed, rfl, rfl⟩

variable {device : Descriptor}

/-- A page program is one turn. -/
theorem follows_pageProgram (hdevice : engine.requireDevice = .ok device) :
    (engine.pageProgram (UInt32.ofNat piece.address) piece.bytes).run.Follows Stage.next
      (fun result after => Stage.Reaches (.working [] todo) result after)
      (.working [] (piece :: todo)) := by
  unfold pageProgram
  rw [hdevice]
  refine follows_withBus fun width => BusAction.recites_width_bind ?_
  refine BusAction.Recites.bind
    (BusAction.recites_width_bind (BusAction.recites_instruct _ _)) fun _ => ?_
  refine BusAction.Recites.bind (BusAction.recites_transfer _ _).discard fun _ => ?_
  exact BusAction.recites_width_bind (BusAction.recites_transfer _ _).discard

/-- One turn for each page. -/
theorem follows_programPieces (hdevice : engine.requireDevice = .ok device) (start : Nat)
    (pieces : List PagePiece) :
    Program.Follows Stage.next (fun result after => Stage.Reaches (.working [] todo) result after)
      (ExceptT.run (pieces.forM (engine.programPiece start))) (.working [] (pieces ++ todo)) := by
  induction pieces with
  | nil => rfl
  | cons piece rest ih =>
      have hpiece : Program.Follows Stage.next
          (fun result after => Stage.Reaches (.working [] (rest ++ todo)) result after)
          (engine.programPiece start piece).run (.working [] (piece :: rest ++ todo)) := by
        refine Program.Follows.bind (follows_pageProgram hdevice) ?_
        rintro (fault | _) stage hstage
        · exact hstage
        · exact ⟨stage, Stage.next_report .., hstage⟩
      refine Program.Follows.bind hpiece ?_
      rintro (fault | _) stage hstage
      · exact hstage
      · obtain rfl : stage = _ := hstage
        exact ih

/-- A write takes a turn for each page of its data. If it succeeds, they are within the device and
none of them has failed. -/
theorem follows_writeReporting (hdevice : engine.requireDevice = .ok device) (address : UInt32)
    (bytes : Bytes) :
    (engine.writeReporting address bytes).run.Follows Stage.next
      (fun result after => result.isOk = true → after = .working [] [] ∧
        (bytes ≠ [] → engine.checkRange address bytes.length = .ok ()))
      (.working [] (Page.cut address.toNat bytes)) := by
  unfold writeReporting
  rw [hdevice]
  by_cases hbytes : bytes = []
  · subst hbytes
    rw [if_pos rfl, Page.cut_nil]
    exact fun _ => ⟨rfl, fun hsome => absurd rfl hsome⟩
  rw [if_neg hbytes]
  cases hrange : engine.checkRange address bytes.length with
  | error fault => exact fun hok => absurd hok Bool.false_ne_true
  | ok _ =>
      have hpieces := @follows_programPieces engine [] device hdevice address.toNat
        (Page.cut address.toNat bytes)
      rw [List.append_nil] at hpieces
      refine ⟨_, Stage.next_report .., Program.Follows.mono hpieces ?_⟩
      rintro (fault | _) stage hstage
      · exact fun hok => absurd hok Bool.false_ne_true
      · exact fun _ => ⟨hstage, fun _ => rfl⟩

/-- Every kind of write keeps to the rule. -/
theorem follows_perform (hdevice : engine.requireDevice = .ok device) {operation : Operation}
    {address : UInt32} {bytes : Bytes}
    (hoperation : operation.written? = some (address, bytes)) :
    (engine.perform operation).Follows Stage.next
      (fun outcome after => outcome.result.isOk = true → after = .working [] [] ∧
        (bytes ≠ [] → engine.checkRange address bytes.length = .ok ()))
      (.working [] (Page.cut address.toNat bytes)) := by
  have hreporting := follows_writeReporting hdevice address bytes
  have hsilenced := hreporting.silenced fun _ _ _ => Stage.eq_of_next_report
  have houtcome : ∀ (result : Except Fault Unit) (stage : Stage) (post : Prop),
      (result.isOk = true → post) → (Outcome.ofUnit result).result.isOk = true → post := by
    rintro (fault | _) stage post hpost hok
    · exact hpost hok
    · exact hpost rfl
  cases operation with
  | write | writeMetered =>
      obtain ⟨rfl, rfl⟩ := Prod.mk.inj (Option.some.inj hoperation)
      exact Program.Follows.bind hsilenced fun result stage hpost => houtcome result stage _ hpost
  | writeReporting =>
      obtain ⟨rfl, rfl⟩ := Prod.mk.inj (Option.some.inj hoperation)
      exact Program.Follows.bind hreporting fun result stage hpost => houtcome result stage _ hpost
  | _ => simp [Operation.written?] at hoperation

end Engine

end NorFlash
