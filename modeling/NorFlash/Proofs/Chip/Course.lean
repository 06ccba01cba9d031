import NorFlash.Proofs.Chip.Discipline

/-!
# The course of a page program

A page program takes its bytes one after the other, and what it notes about each is what the chip
logs of the whole. Data of at most a page sends no two bytes to one cell, so that each of them falls
on what was stored before the program: `Memory.completes_programs`. From that follows what the
logged flags tell, `Chip.program_logs_truth`.
-/

namespace NorFlash

namespace Memory

variable {before middle after : Programming} {address first second : Nat}

/-- What is stored where the byte `offset` places into a program goes. -/
def beneath (memory : Memory) (address offset : Nat) : UInt8 :=
  memory.byteAt (memory.programCell address offset)

/-- Which cell a byte is programmed into depends on the size of the memory only. -/
theorem programCell_of_bits {before after : Memory} (h : after.bits = before.bits)
    (address offset : Nat) :
    after.programCell address offset = before.programCell address offset := by
  rw [programCell, programCell, pageBase_of_bits h]

/-- Bytes less than a page apart go to different cells, also around the end of the page. -/
theorem programCell_ne (memory : Memory) (hafter : first < second)
    (hpage : second < first + pageSize) :
    memory.programCell address first ≠ memory.programCell address second := by
  unfold programCell pageSize at *
  omega

/-- A course that went on by the bytes sent, each with its place in the data. The flags take in what
was stored where the bytes go, each of their cells keeps the bits that its byte leaves, and all
others are as before. -/
structure Completes (address : Nat) (sent : List (UInt8 × Nat)) (before after : Programming) :
    Prop where
  bits : after.memory.bits = before.memory.bits
  ontoErased : after.ontoErased = true ↔ before.ontoErased = true ∧
    ∀ placed ∈ sent, before.memory.beneath address placed.2 = Bytes.erased
  needsErase : after.needsErase = true ↔ before.needsErase = true ∨
    ∃ placed ∈ sent, before.memory.beneath address placed.2 &&& placed.1 ≠ placed.1
  beneath : ∀ placed ∈ sent,
    after.memory.beneath address placed.2 = before.memory.beneath address placed.2 &&& placed.1
  elsewhere : ∀ place,
    (∀ placed ∈ sent, before.memory.index place ≠ before.memory.programCell address placed.2) →
    after.memory.byteAt place = before.memory.byteAt place

/-- Without bytes there is nothing to complete. -/
theorem completes_nil (address : Nat) (course : Programming) :
    Completes address [] course course :=
  ⟨rfl, by simp, by simp, nofun, fun _ _ => rfl⟩

/-- Programming one byte completes it. -/
theorem completes_programByte (address : Nat) (course : Programming) (placed : UInt8 × Nat) :
    Completes address [placed] course (programByte address course placed) := by
  refine ⟨rfl, ?_, ?_, fun other hother => ?_, fun place hplace => ?_⟩
  · simp [programByte, Memory.beneath]
  · simp [programByte, Memory.beneath]
  · obtain rfl := List.mem_singleton.mp hother
    exact (byteAt_set ..).trans (if_pos rfl)
  · refine (byteAt_set ..).trans (if_neg ?_)
    rw [index_programCell]
    exact hplace placed (List.mem_singleton_self placed)

/-- What a course leaves alone is still there for the bytes that go elsewhere. -/
theorem Completes.beneath_eq {sent : List (UInt8 × Nat)} {offset : Nat}
    (h : Completes address sent before after)
    (hne : ∀ placed ∈ sent, before.memory.programCell address offset ≠
      before.memory.programCell address placed.2) :
    after.memory.beneath address offset = before.memory.beneath address offset := by
  rw [Memory.beneath, programCell_of_bits h.bits]
  exact h.elsewhere _ fun placed hplaced => by
    rw [index_programCell]
    exact hne placed hplaced

/-- A byte, and then others that go to other cells. -/
theorem Completes.cons {placed : UInt8 × Nat} {rest : List (UInt8 × Nat)}
    (h : Completes address [placed] before middle) (hrest : Completes address rest middle after)
    (hne : ∀ other ∈ rest, before.memory.programCell address placed.2 ≠
      before.memory.programCell address other.2) :
    Completes address (placed :: rest) before after := by
  have hcell := programCell_of_bits h.bits address
  have hindex : ∀ place, middle.memory.index place = before.memory.index place := fun place => by
    simp only [index, size, h.bits]
  have hbeneath : ∀ other ∈ rest,
      middle.memory.beneath address other.2 = before.memory.beneath address other.2 :=
    fun other hother => h.beneath_eq fun single hsingle =>
      List.mem_singleton.mp hsingle ▸ (hne other hother).symm
  refine ⟨hrest.bits.trans h.bits, ?_, ?_, ?_, fun place hplace => ?_⟩
  · have hall : (∀ other ∈ rest, middle.memory.beneath address other.2 = Bytes.erased) ↔
        ∀ other ∈ rest, before.memory.beneath address other.2 = Bytes.erased :=
      forall₂_congr fun other hother => by rw [hbeneath other hother]
    rw [hrest.ontoErased, h.ontoErased, hall]
    simp [and_assoc]
  · have hany : (∃ other ∈ rest, middle.memory.beneath address other.2 &&& other.1 ≠ other.1) ↔
        ∃ other ∈ rest, before.memory.beneath address other.2 &&& other.1 ≠ other.1 :=
      exists_congr fun other => and_congr_right fun hother => by rw [hbeneath other hother]
    rw [hrest.needsErase, h.needsErase, hany]
    simp [or_assoc]
  · rintro other (_ | ⟨_, hother⟩)
    · rw [hrest.beneath_eq fun later hlater => by rw [hcell, hcell]; exact hne later hlater]
      exact h.beneath placed (List.mem_singleton_self placed)
    · rw [hrest.beneath other hother, hbeneath other hother]
  · have hfirst : middle.memory.byteAt place = before.memory.byteAt place :=
      h.elsewhere place fun single hsingle =>
        List.mem_singleton.mp hsingle ▸ hplace placed List.mem_cons_self
    rw [← hfirst]
    refine hrest.elsewhere place fun other hother => ?_
    rw [hindex, hcell]
    exact hplace other (List.mem_cons_of_mem placed hother)

/-- Programming bytes one after the other completes them all, as long as they do not wrap around
onto each other. -/
theorem completes_programs (offset : Nat) (course : Programming) {bytes : Bytes}
    (hlength : bytes.length ≤ pageSize) :
    Completes address (bytes.zipIdx offset) course
      ((bytes.zipIdx offset).foldl (programByte address) course) := by
  induction bytes generalizing offset course with
  | nil => exact completes_nil address course
  | cons byte rest ih =>
      rw [List.length_cons] at hlength
      rw [List.zipIdx_cons, List.foldl_cons]
      refine (completes_programByte address course (byte, offset)).cons
        (ih (offset + 1) _ (by omega)) fun other hother => ?_
      have hbefore := List.le_snd_of_mem_zipIdx hother
      have hwithin := List.snd_lt_add_of_mem_zipIdx hother
      exact programCell_ne course.memory (by omega) (by omega)

/-- Programming up to a page completes every byte. -/
theorem completes_program (memory : Memory) (address : Nat) {bytes : Bytes}
    (hlength : bytes.length ≤ pageSize) :
    Completes address bytes.zipIdx ⟨memory, true, false⟩ (memory.program address bytes) :=
  completes_programs 0 ⟨memory, true, false⟩ hlength

/-- A numbered byte stands where its number says. -/
theorem mem_zipIdx_iff {bytes : Bytes} {placed : UInt8 × Nat} :
    placed ∈ bytes.zipIdx ↔ ∃ h : placed.2 < bytes.length, bytes[placed.2] = placed.1 := by
  rw [List.mem_zipIdx_iff_getElem?, List.getElem?_eq_some_iff]

section Program

variable (memory : Memory) (address : Nat) {bytes : Bytes} (hlength : bytes.length ≤ pageSize)

include hlength

/-- A program is logged as onto erased bytes exactly if it was onto nothing else. -/
theorem ontoErased_program : (memory.program address bytes).ontoErased = true ↔
    ∀ offset < bytes.length, memory.beneath address offset = Bytes.erased := by
  rw [(completes_program memory address hlength).ontoErased]
  refine (and_iff_right rfl).trans ⟨fun h offset hoffset => ?_, fun h placed hplaced => ?_⟩
  · exact h (bytes[offset], offset) (mem_zipIdx_iff.mpr ⟨hoffset, rfl⟩)
  · exact h placed.2 (mem_zipIdx_iff.mp hplaced).1

/-- Each byte is stored as far as what it falls on lets it. -/
theorem beneath_program {offset : Nat} (hoffset : offset < bytes.length) :
    (memory.program address bytes).memory.beneath address offset =
      memory.beneath address offset &&& bytes[offset] :=
  (completes_program memory address hlength).beneath (bytes[offset], offset)
    (mem_zipIdx_iff.mpr ⟨hoffset, rfl⟩)

/-- A program is logged as in want of an erase exactly if it did not store some byte. -/
theorem needsErase_program : (memory.program address bytes).needsErase = true ↔
    ∃ offset, ∃ h : offset < bytes.length,
      (memory.program address bytes).memory.beneath address offset ≠ bytes[offset] := by
  rw [(completes_program memory address hlength).needsErase, or_iff_right Bool.false_ne_true]
  constructor
  · rintro ⟨placed, hplaced, hlost⟩
    obtain ⟨hoffset, hbyte⟩ := mem_zipIdx_iff.mp hplaced
    refine ⟨placed.2, hoffset, ?_⟩
    rwa [beneath_program memory address hlength hoffset, hbyte]
  · rintro ⟨offset, hoffset, hlost⟩
    rw [beneath_program memory address hlength hoffset] at hlost
    exact ⟨(bytes[offset], offset), mem_zipIdx_iff.mpr ⟨hoffset, rfl⟩, hlost⟩

/-- Nothing is lost on erased bytes. -/
theorem needsErase_of_ontoErased (h : (memory.program address bytes).ontoErased = true) :
    (memory.program address bytes).needsErase = false := by
  refine Bool.eq_false_iff.mpr fun hneeds => ?_
  obtain ⟨offset, hoffset, hlost⟩ := (needsErase_program memory address hlength).mp hneeds
  rw [beneath_program memory address hlength hoffset,
    (ontoErased_program memory address hlength).mp h offset hoffset] at hlost
  exact hlost UInt8.neg_one_and

/-- A program leaves the bytes alone that it is not to change. -/
theorem byteAt_program {place : Nat}
    (hplace : ∀ offset < bytes.length, memory.index place ≠ memory.programCell address offset) :
    (memory.program address bytes).memory.byteAt place = memory.byteAt place :=
  (completes_program memory address hlength).elsewhere place fun placed hplaced =>
    hplace placed.2 (mem_zipIdx_iff.mp hplaced).1

end Program

end Memory

namespace Chip

variable {chip : Chip} {bytes : Bytes}

/-- A call that has the chip program a page, and that it hears, does so. -/
theorem answer_program {request : BusCall} {command : Command}
    (hsent : request.command? = some command)
    (hcode : command.instruction = Opcode.pageProgram.code) (hdata : command.data = .write bytes)
    (hhears : chip.Hears command.width) (hrefuses : chip.refuses = false) :
    (chip.answer request).2.memory = (chip.program command.location bytes).memory ∧
      (chip.answer request).2.events = (chip.program command.location bytes).events := by
  have hdecode : Instruction.decode? chip.vendor command.instruction = some .program := by
    rw [hcode]
    exact Instruction.decode?_of_shared (by decide) chip.vendor
  have hobeyed : chip.obeyed? request = some command :=
    obeyed?_eq_some.mpr ⟨hrefuses, hsent, hhears⟩
  rw [(answer_heeded hobeyed hdecode).2]
  simp only [heed, obey, hdata, program]
  cases chip.latches.writeEnable <;> exact ⟨rfl, rfl⟩

/-- A page program under write enable logs of its data, at most a page of it, whether all of it fell
on erased bytes, and whether some of it is stored otherwise than it was sent, which is not so if all
fell on erased bytes. Only the cells that the data goes to are changed, and none outside the page.
A call for the program that the chip hears has just this effect. -/
theorem program_logs_truth (hlatch : chip.latches.writeEnable = true) (address : UInt32)
    (hlength : bytes.length ≤ pageSize) :
    let after := chip.program address bytes
    ∃ ontoErased needsErase,
      after.events = chip.events.push (.program address bytes.length ontoErased needsErase) ∧
      (ontoErased = true ↔ ∀ offset < bytes.length,
        chip.memory.beneath address.toNat offset = Bytes.erased) ∧
      (needsErase = true ↔ ∃ offset, ∃ h : offset < bytes.length,
        after.memory.beneath address.toNat offset ≠ bytes[offset]) ∧
      (ontoErased = true → needsErase = false) ∧
      (∀ place, (∀ offset < bytes.length,
          chip.memory.index place ≠ chip.memory.programCell address.toNat offset) →
        after.memory.byteAt place = chip.memory.byteAt place) ∧
      (∀ place, chip.memory.pageBase place ≠ chip.memory.pageBase address.toNat →
        after.memory.byteAt place = chip.memory.byteAt place) ∧
      ∀ request command, request.command? = some command →
        command.instruction = Opcode.pageProgram.code → command.location = address →
        command.data = .write bytes → chip.Hears command.width → chip.refuses = false →
        (chip.answer request).2.memory = after.memory ∧
          (chip.answer request).2.events = after.events := by
  have hafter : (chip.program address bytes).memory =
      (chip.memory.program address.toNat bytes).memory := by
    simp [program, hlatch]
  refine ⟨_, _, by simp only [program, hlatch, if_true],
    Memory.ontoErased_program chip.memory address.toNat hlength, ?_,
    Memory.needsErase_of_ontoErased chip.memory address.toNat hlength, fun place hplace => ?_,
    fun place hplace => ?_, ?_⟩
  · rw [hafter]
    exact Memory.needsErase_program chip.memory address.toNat hlength
  · rw [hafter]
    exact Memory.byteAt_program chip.memory address.toNat hlength hplace
  · rw [hafter]
    exact (Memory.pageCleared_program chip.memory address.toNat bytes).elsewhere place hplace
  · rintro request command hsent hcode rfl hdata hhears hrefuses
    exact answer_program hsent hcode hdata hhears hrefuses

/-- The second byte goes to the first place of the page, where a bit is missing. -/
theorem program_logs_truth_around_page :
    let chip := (((fresh ⟨0xEF, 0x4015⟩).overwrite 0x100 [0x7F]).answer
      (.command (.instruct Opcode.writeEnable.code .single))).2
    let command := ((Command.instruct Opcode.pageProgram.code .single).atAddress 0x1FF .single
      ).writing [0x0F, 0xF0] .single
    chip.latches.writeEnable = true ∧ chip.memory.programCell 0x1FF 1 = 0x100 ∧
      ∃ ontoErased needsErase,
        (chip.answer (.start command)).2.events =
          chip.events.push (.program 0x1FF 2 ontoErased needsErase) ∧
        ontoErased = false ∧ needsErase = true := by
  intro chip command
  have hlatch : chip.latches.writeEnable = true := by decide +kernel
  have hsecond : chip.memory.beneath 0x1FF 1 = 0x7F := by decide +kernel
  obtain ⟨ontoErased, needsErase, hevents, honto, hneeds, -, -, -, hcall⟩ :=
    @program_logs_truth chip [0x0F, 0xF0] hlatch 0x1FF (by decide)
  have hhears : chip.Hears .single := ⟨by decide +kernel, by decide +kernel⟩
  obtain ⟨-, hlogged⟩ :=
    hcall (.start command) command rfl rfl rfl rfl hhears (by decide +kernel)
  refine ⟨hlatch, by decide +kernel, ontoErased, needsErase, hlogged.trans hevents, ?_, ?_⟩
  · refine Bool.eq_false_iff.mpr fun herased => ?_
    exact absurd (hsecond.symm.trans (honto.mp herased 1 (by decide))) (by decide)
  · refine hneeds.mpr ⟨1, by decide, ?_⟩
    decide +kernel

end Chip

end NorFlash
