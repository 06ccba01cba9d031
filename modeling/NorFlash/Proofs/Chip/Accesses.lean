import NorFlash.Proofs.Chip.Flat
import NorFlash.Proofs.Chip.Handling

/-!
# What a chip does with its memory

`Chip.access?` is the one access to the memory, if any, that a handling comes to. That there is no
other is said by `Chip.ignores_handle`: a handling that comes to none is the same with any other
memory. `Chip.perform_handle` says that one that comes to an access does what the access makes of
the memory. So `Chip.accesses_stay_inside` holds of every run: made to the flat array that a new
chip begins with, no access of the run goes beyond its end.
-/

namespace NorFlash

namespace Chip

/-- The access to the memory that a command comes to when it has an instruction obeyed. -/
def commanded? (chip : Chip) (command : Command) : Instruction → Option MemoryAccess
  | .program =>
      match command.data with
      | .write bytes =>
          if chip.latches.writeEnable then some (.program command.location bytes) else none
      | _ => none
  | .erase area =>
      if chip.latches.writeEnable then some (.erase (.unit area) command.location) else none
  | .eraseChip => if chip.latches.writeEnable then some (.erase .chip 0) else none
  | .readQuad =>
      match chip.checkRead command, command.data with
      | .ok (), .read length => some (.read command.location length)
      | _, _ => none
  | _ => none

/-- The access to the memory that a handling comes to. -/
def access? (chip : Chip) : Handling → Option MemoryAccess
  | .call request => do
      let command ← chip.obeyed? request
      let instruction ← Instruction.decode? chip.vendor command.instruction
      chip.commanded? command instruction
  | .peek address length => some (.read address length)
  | .poke address bytes => some (.overwrite address bytes)
  | .readMapped address length => if chip.mapped then some (.read address length) else none
  | .setAsleep _ | .setQuadEnable _ | .failing .. => none

/-- The accesses to the memory that a run of handlings comes to. -/
def accesses (chip : Chip) : List Handling → List MemoryAccess
  | [] => []
  | handling :: rest => (chip.access? handling).toList ++ (chip.handle handling).2.accesses rest

/-- The bytes that a reply hands out. -/
def handed : Reply → Option Bytes
  | .ok received => received
  | .error _ => none

/-- The chip with another memory. -/
def withMemory (chip : Chip) (memory : Memory) : Chip :=
  { chip with memory }

/-- The memory is neither looked at nor changed: with any other, all is the same. -/
def Ignores {Result : Type} (act : Chip → Result × Chip) (chip : Chip) : Prop :=
  ∀ memory, act (chip.withMemory memory) = ((act chip).1, (act chip).2.withMemory memory)

variable {chip : Chip} {command : Command} {request : BusCall} {instruction : Instruction}

/-- A call is handled by answering it, and hands over what is read. -/
theorem handle_call_eq (chip : Chip) (request : BusCall) :
    chip.handle (.call request) =
      (handed (chip.answer request).1.reply, (chip.answer request).2) := by
  simp only [handle]
  cases (chip.answer request).1.reply <;> rfl

/-- A command that is obeyed is handled by carrying it out. -/
theorem handle_obeyed (h : chip.obeyed? request = some command) :
    chip.handle (.call request) =
      (handed ((chip.drawn.log command.instruction).hear command).1,
        ((chip.drawn.log command.instruction).hear command).2) := by
  obtain ⟨hreply, hafter⟩ := answer_obeyed h
  rw [handle_call_eq, hreply, hafter]

/-! ## Without an access -/

/-- An instruction that asks for no access does not look at the memory. -/
theorem ignores_obey (h : chip.commanded? command instruction = none) (resetEnabled : Bool) :
    Ignores (·.obey instruction resetEnabled command) chip := by
  intro memory
  cases instruction with
  | program =>
      cases hdata : command.data with
      | write bytes =>
          have hlatch : chip.latches.writeEnable = false := by simpa [commanded?, hdata] using h
          simp [obey, hdata, program, withMemory, hlatch]
      | _ => simp [obey, hdata, withMemory]
  | erase | eraseChip =>
      have hlatch : chip.latches.writeEnable = false := by simpa [commanded?] using h
      simp [obey, erase, withMemory, hlatch]
  | readQuad =>
      have hcheck : (chip.withMemory memory).checkRead command = chip.checkRead command := rfl
      have hquad : (chip.withMemory memory).readQuad command command.location =
          chip.readQuad command command.location := by
        unfold readQuad
        rw [hcheck]
        cases hread : chip.checkRead command with
        | error fault => rfl
        | ok =>
            cases hdata : command.data with
            | read length => simp [commanded?, hread, hdata] at h
            | _ => rfl
      exact congrArg (·, chip.withMemory memory) hquad
  | reset => cases resetEnabled <;> rfl
  | enterQuadProtocol =>
      cases hquad : chip.registers.status2.quadEnabled <;> simp [obey, withMemory, hquad]
  | setReadParameters =>
      cases hdata : firstWritten? command <;> cases hquad : chip.quad <;>
        simp [obey, withMemory, hdata, hquad]
  | writeVolatileConfig | writeEnhancedConfig =>
      cases hdata : firstWritten? command <;> cases hlatch : chip.latches.writeEnable <;>
        simp [obey, writeVolatileConfig, writeEnhancedConfig, consumeWriteEnable, withMemory, hdata,
          hlatch]
  | _ => rfl

/-- A command that is not heard does not look at the memory. -/
theorem ignores_execute (h : chip.refuses = false → ¬chip.Hears command.width) :
    Ignores (·.execute command) chip := by
  intro memory
  have hother : (chip.withMemory memory).refuses = false →
      ¬(chip.withMemory memory).Hears command.width := h
  have hsame : (chip.withMemory memory).refuses = chip.refuses := rfl
  simp only
  rw [execute_not_obeyed h, execute_not_obeyed hother, hsame]
  cases chip.refuses <;> rfl

/-- A call that is not obeyed does not look at the memory. -/
theorem ignores_not_obeyed (h : chip.obeyed? request = none) :
    Ignores (·.handle (.call request)) chip := by
  intro memory
  simp only [handle_call_eq]
  have hunheard := not_hears_of_not_obeyed h
  cases request with
  | command sent | start sent =>
      have hsame := ignores_execute (hunheard sent rfl) memory
      exact congrArg (fun result : Reply × Chip => (handed result.1, result.2)) hsame
  | poll poll =>
      simp only [answer, Chip.poll, drawFailure, withMemory]
      cases chip.plan.next.1 <;> rfl
  | map command =>
      have hlisten : ∀ plan memory, ({ chip with plan, memory }).listens command.width =
          chip.listens command.width := fun _ _ => rfl
      have hcheck : ∀ plan memory, ({ chip with plan, memory }).checkRead command =
          chip.checkRead command := fun _ _ => rfl
      simp only [answer, map, drawFailure, withMemory]
      cases chip.plan.next.1 with
      | true => rfl
      | false =>
          simp only [hlisten, hcheck]
          cases chip.asleep || !chip.listens command.width with
          | true => rfl
          | false => cases chip.checkRead command <;> rfl
  | abort => rfl

/-- A command heard that asks for no access does not look at the memory. -/
theorem ignores_hear
    (h : (Instruction.decode? chip.vendor command.instruction).bind (chip.commanded? command) =
      none) : Ignores (·.hear command) chip := by
  intro memory
  have hvendor : (chip.withMemory memory).vendor = chip.vendor := rfl
  simp only [hear, hvendor]
  cases hdecode : Instruction.decode? chip.vendor command.instruction with
  | none => rfl
  | some instruction =>
      rw [hdecode] at h
      let heard := { chip with latches := { chip.latches with resetEnable := false } }
      have hnone : heard.commanded? command instruction = none := h
      exact ignores_obey hnone chip.latches.resetEnable memory

/-- A handling that comes to no access to the memory ignores it. -/
theorem ignores_handle {handling : Handling} (h : chip.access? handling = none) :
    Ignores (·.handle handling) chip := by
  cases handling with
  | call request =>
      cases hobeyed : chip.obeyed? request with
      | none => exact ignores_not_obeyed hobeyed
      | some command =>
          intro memory
          have hother : (chip.withMemory memory).obeyed? request = some command := hobeyed
          let drawn := chip.drawn.log command.instruction
          have hnone : (Instruction.decode? drawn.vendor command.instruction).bind
              (drawn.commanded? command) = none := by
            rw [access?, hobeyed] at h
            exact h
          have hsame := ignores_hear hnone memory
          simp only [handle_obeyed hobeyed, handle_obeyed hother]
          exact congrArg (fun result : Reply × Chip => (handed result.1, result.2)) hsame
  | peek | poke => cases h
  | readMapped address length =>
      have hmapped : chip.mapped = false := by simpa [access?] using h
      intro memory
      simp [handle, readMapped, withMemory, hmapped]
  | setAsleep | setQuadEnable | failing => exact fun _ => rfl

/-! ## With an access -/

/-- An instruction that asks for an access makes just that one. -/
theorem perform_obey {access : MemoryAccess} (h : chip.commanded? command instruction = some access)
    (resetEnabled : Bool) :
    (handed (chip.obey instruction resetEnabled command).1,
      (chip.obey instruction resetEnabled command).2.memory) = chip.memory.perform access := by
  cases instruction with
  | program =>
      cases hdata : command.data with
      | write bytes =>
          obtain ⟨hlatch, rfl⟩ : chip.latches.writeEnable = true ∧
              MemoryAccess.program command.location bytes = access := by
            simpa [commanded?, hdata] using h
          simp only [obey, hdata, program, hlatch, if_true]
          rfl
      | _ => simp [commanded?, hdata] at h
  | erase area =>
      obtain ⟨hlatch, rfl⟩ : chip.latches.writeEnable = true ∧
          MemoryAccess.erase (.unit area) command.location = access := by
        simpa [commanded?] using h
      simp only [obey, erase, hlatch, if_true]
      rfl
  | eraseChip =>
      obtain ⟨hlatch, rfl⟩ : chip.latches.writeEnable = true ∧
          MemoryAccess.erase .chip 0 = access := by
        simpa [commanded?] using h
      simp only [obey, erase, hlatch, if_true]
      rfl
  | readQuad =>
      cases hcheck : chip.checkRead command with
      | error fault => simp [commanded?, hcheck] at h
      | ok =>
          cases hdata : command.data with
          | read length =>
              obtain rfl : MemoryAccess.read command.location length = access := by
                simpa [commanded?, hcheck, hdata] using h
              simp only [obey, readQuad, hcheck, hdata]
              rfl
          | _ => simp [commanded?, hcheck, hdata] at h
  | _ => cases h

/-- A command heard that asks for an access makes just that one. -/
theorem perform_hear {access : MemoryAccess}
    (h : (Instruction.decode? chip.vendor command.instruction).bind (chip.commanded? command) =
      some access) :
    (handed (chip.hear command).1, (chip.hear command).2.memory) = chip.memory.perform access := by
  obtain ⟨instruction, hdecode, haccess⟩ := Option.bind_eq_some_iff.mp h
  simp only [hear, hdecode]
  let heard := { chip with latches := { chip.latches with resetEnable := false } }
  have hheard : heard.commanded? command instruction = some access := haccess
  exact perform_obey hheard chip.latches.resetEnable

/-- What a handling hands out, and what it leaves in the memory, is what the access makes of it. -/
theorem perform_handle {handling : Handling} {access : MemoryAccess}
    (h : chip.access? handling = some access) :
    ((chip.handle handling).1, (chip.handle handling).2.memory) = chip.memory.perform access := by
  cases handling with
  | call request =>
      obtain ⟨command, hobeyed, hcommanded⟩ := Option.bind_eq_some_iff.mp h
      let drawn := chip.drawn.log command.instruction
      have haccess : (Instruction.decode? drawn.vendor command.instruction).bind
          (drawn.commanded? command) = some access := hcommanded
      rw [handle_obeyed hobeyed]
      exact perform_hear haccess
  | peek | poke =>
      obtain rfl := Option.some.inj h
      rfl
  | readMapped address length =>
      obtain ⟨hmapped, rfl⟩ : chip.mapped = true ∧ MemoryAccess.read address length = access := by
        simpa [access?] using h
      simp only [handle, readMapped, hmapped, if_true]
      rfl
  | setAsleep | setQuadEnable | failing => cases h

/-! ## Runs -/

/-- The memory after a handling, as the access to it says. -/
theorem memory_handle (handling : Handling) :
    (chip.handle handling).2.memory =
      ((chip.access? handling).elim chip.memory fun access => (chip.memory.perform access).2) := by
  cases haccess : chip.access? handling with
  | none => exact congrArg (·.2.memory) (ignores_handle haccess chip.memory)
  | some access => exact congrArg Prod.snd (perform_handle haccess)

/-- However a chip is handled, its memory is not resized. -/
theorem bits_handleAll (chip : Chip) (handlings : List Handling) :
    (chip.handleAll handlings).memory.bits = chip.memory.bits := by
  induction handlings generalizing chip with
  | nil => rfl
  | cons handling rest ih =>
      have hhandling : (chip.handle handling).2.memory.bits = chip.memory.bits := by
        rw [memory_handle]
        cases chip.access? handling with
        | none => rfl
        | some access => exact chip.memory.bits_perform access
      exact (ih _).trans hhandling

/-- The accesses of a run, made to the array of the memory, lead to that of the memory after it. -/
theorem performAll?_accesses (chip : Chip) (handlings : List Handling) :
    chip.memory.flat.performAll? (chip.accesses handlings) =
      some (chip.handleAll handlings).memory.flat := by
  induction handlings generalizing chip with
  | nil => rfl
  | cons handling rest ih =>
      have hlater := ih (chip.handle handling).2
      rw [memory_handle] at hlater
      rw [accesses]
      cases haccess : chip.access? handling with
      | none =>
          rw [haccess] at hlater
          exact hlater
      | some access =>
          rw [haccess] at hlater
          rw [Option.toList_some, List.singleton_append, FlatMemory.performAll?, List.foldlM_cons,
            Memory.perform?_flat]
          exact hlater

/-- A chip of any identification begins with an array of a power of two of cells, at least a sector
and at most what 24 address bits reach. Whatever is done with the chip, none of the accesses that
its memory sees goes beyond the end of the array, which keeps its size. Nor would any further
access: its indices are below the size, and the unit that an erase clears is aligned, inside, and
holds the cell that the address selects. A handling that comes to no access has nothing to do with
the memory, and one that does hands out and leaves behind what the access to the array does. -/
theorem accesses_stay_inside (id : JedecId) (handlings : List Handling) :
    let chip := (fresh id).handleAll handlings
    let initial := FlatMemory.blank id.capacityCode
    initial.performAll? ((fresh id).accesses handlings) = some chip.memory.flat ∧
      chip.memory.flat.size = initial.size ∧ chip.memory.Bounded ∧
      ∀ handling, (chip.access? handling = none → Ignores (·.handle handling) chip) ∧
        ∀ access, chip.access? handling = some access →
          chip.memory.flat.perform? access =
            some ((chip.handle handling).1, (chip.handle handling).2.memory.flat) := by
  intro chip initial
  have hinitial : (fresh id).memory.flat = initial := Memory.flat_blank id.capacityCode
  refine ⟨hinitial ▸ performAll?_accesses (fresh id) handlings, ?_, chip.memory.bounded,
    fun handling => ⟨ignores_handle, fun access haccess => ?_⟩⟩
  · rw [← hinitial, Memory.size_flat, Memory.size_flat]
    exact congrArg addressable (bits_handleAll (fresh id) handlings)
  · rw [Memory.perform?_flat, ← perform_handle haccess]

end Chip

end NorFlash
