import NorFlash.Proofs.Bench.Run
import NorFlash.Proofs.Engine.Repertoire

/-!
# What a run leaves alone

Consequences of `Program.Orderly.run` for programs that send only the instructions listed: the chip
stays the chip it is, it stays awake if none of them puts it to sleep, it keeps its mode or its
memory if none of them changes that, and what is recorded is among them. None of this depends on
what the chip answers or refuses.
-/

namespace NorFlash

variable {α : Type} {calls : BusCall → Prop} {widths : BusWidth → Prop} {codes : List UInt8}
  {values : α → Prop} {program : Program α} {bench : Bench}

namespace Bench

/-- Nobody holds the bus, and the width recorded satisfies `widths`. -/
def Free (widths : BusWidth → Prop) (bench : Bench) : Prop :=
  ∃ bus, bench.bus = some bus ∧ widths bus.width

/-- The commands recorded after `bench` are among the instructions listed. -/
def Adds (codes : List UInt8) (bench after : Bench) : Prop :=
  ∃ sent, after.commands = bench.commands ++ sent ∧ ∀ entry ∈ sent, entry.1.instruction ∈ codes

/-- A trace line counts as a reading of the identification if it is one. -/
theorem idReads_push (entries : Array TraceEntry) (entry : TraceEntry) :
    (entries.push entry).toList.countP TraceEntry.readsId =
      entries.toList.countP TraceEntry.readsId + (if entry.readsId then 1 else 0) := by
  rw [Array.toList_push, List.countP_append]
  simp [List.countP_cons]

end Bench

/-- A chip that is awake keeps its mode on a call that changes none. -/
theorem Chip.mode_answer_among {first chip : Chip} {request : BusCall}
    (hcodes : Instruction.NoneAmong Instruction.changesMode codes)
    (hawake : first.asleep = false) (hrequest : BusCall.Among codes request)
    (hchip : chip.mode = first.mode) : (chip.answer request).2.mode = first.mode := by
  have hchipAwake : chip.asleep = false := (congrArg Chip.Mode.asleep hchip).trans hawake
  exact (Chip.mode_answer hchipAwake fun code hcode =>
    hcodes code (hrequest code hcode)).trans hchip

namespace Program.Orderly

/-- The bus is free again, and a property that no call breaks still holds. -/
theorem keeps {property : Chip → Array TraceEntry → Prop}
    (h : program.Orderly calls widths false values false)
    (hcall : ∀ request chip trace refused, calls request → property chip trace →
      property (chip.answer request).2 (trace.push (.call request refused)))
    (hfree : bench.Free widths) (hproperty : property bench.chip bench.trace) :
    program.Ends Bench.environment
      (fun value after => values value ∧ property after.chip after.trace ∧ after.Free widths)
      bench := by
  have hbench : bench.Keeps widths property false := ⟨hproperty, hfree⟩
  exact (run (fun request chip trace hrequest => hcall request chip trace _ hrequest) h
    hbench).mono fun _ after hafter => hafter

/-- An orderly program gives the bus back, at one of the widths it may record. -/
theorem free (h : program.Orderly calls widths false values false) (hfree : bench.Free widths) :
    program.Ends Bench.environment (fun _ after => after.Free widths) bench :=
  (h.keeps (fun _ _ _ _ _ _ => trivial : ∀ _ _ _ _, _ → True → True) hfree trivial).mono
    fun _ _ hafter => hafter.2.2

/-- An orderly program leaves a sound chip sound. -/
theorem sound {id : JedecId} (h : program.Orderly calls widths false values false)
    (hfree : bench.Free widths) (hsound : Chip.Sound id bench.chip) :
    program.Ends Bench.environment (fun _ after => Chip.Sound id after.chip) bench := by
  have hcall : ∀ request chip (trace : Array TraceEntry) (refused : Bool), calls request →
      Chip.Sound id chip → Chip.Sound id (chip.answer request).2 :=
    fun request _ _ _ _ hchip => hchip.answer request
  exact (h.keeps hcall hfree hsound).mono fun _ _ hafter => hafter.2.1

/-- An orderly program leaves the chip the same make. -/
theorem sameBuild (h : program.Orderly calls widths false values false)
    (hfree : bench.Free widths) :
    program.Ends Bench.environment
      (fun _ after => Chip.SameBuild bench.chip after.chip) bench := by
  have hcall : ∀ request chip (trace : Array TraceEntry) (refused : Bool), calls request →
      Chip.SameBuild bench.chip chip → Chip.SameBuild bench.chip (chip.answer request).2 :=
    fun request chip _ _ _ hchip => hchip.trans (Chip.sameBuild_answer chip request)
  exact (h.keeps hcall hfree (.refl _)).mono fun _ _ hafter => hafter.2.1

section Among

variable (h : program.Orderly (BusCall.Among codes) widths false values false)
  (hfree : bench.Free widths)

include h hfree

/-- A program that sends no chip to sleep leaves it awake. -/
theorem awake (hcodes : Instruction.NoneAmong (· == .sleep) codes)
    (hawake : bench.chip.asleep = false) :
    program.Ends Bench.environment (fun _ after => after.chip.asleep = false) bench := by
  have hcall : ∀ request chip (trace : Array TraceEntry) (refused : Bool),
      BusCall.Among codes request → Chip.asleep chip = false →
        (chip.answer request).2.asleep = false :=
    fun request chip _ _ hrequest hchip =>
      Chip.asleep_answer hchip fun code hcode => hcodes code (hrequest code hcode)
  exact (h.keeps hcall hfree hawake).mono fun _ _ hafter => hafter.2.1

/-- A program that sends nothing that changes a mode leaves the mode alone. -/
theorem mode (hcodes : Instruction.NoneAmong Instruction.changesMode codes)
    (hawake : bench.chip.asleep = false) :
    program.Ends Bench.environment (fun _ after => after.chip.mode = bench.chip.mode) bench := by
  have hcall : ∀ request chip (trace : Array TraceEntry) (refused : Bool),
      BusCall.Among codes request → Chip.mode chip = bench.chip.mode →
        (chip.answer request).2.mode = bench.chip.mode :=
    fun _ _ _ _ => Chip.mode_answer_among hcodes hawake
  exact (h.keeps hcall hfree rfl).mono fun _ _ hafter => hafter.2.1

/-- The chip keeps its mode even if it is asleep, when nothing wakes it. -/
theorem mode_of_not_wake (hcodes : Instruction.NoneAmong Instruction.changesMode codes)
    (hwake : Opcode.releasePowerDown.code ∉ codes) :
    program.Ends Bench.environment (fun _ after => after.chip.mode = bench.chip.mode) bench := by
  have hcall : ∀ request chip (trace : Array TraceEntry) (refused : Bool),
      BusCall.Among codes request → Chip.mode chip = bench.chip.mode →
        (chip.answer request).2.mode = bench.chip.mode := by
    intro request chip _ _ hrequest hchip
    refine (Chip.mode_answer_of_not_wake fun code hcode => ?_).trans hchip
    exact ⟨hcodes code (hrequest code hcode), fun h => hwake (h ▸ hrequest code hcode)⟩
  exact (h.keeps hcall hfree rfl).mono fun _ _ hafter => hafter.2.1

/-- A program that sends nothing that changes memory leaves the memory alone. -/
theorem memory (hcodes : Instruction.NoneAmong Instruction.changesMemory codes) :
    program.Ends Bench.environment
      (fun _ after => after.chip.memory = bench.chip.memory) bench := by
  have hcall : ∀ request chip (trace : Array TraceEntry) (refused : Bool),
      BusCall.Among codes request → Chip.memory chip = bench.chip.memory →
        (chip.answer request).2.memory = bench.chip.memory :=
    fun request _ _ _ hrequest hchip =>
      (Chip.memory_answer fun code hcode => hcodes code (hrequest code hcode)).trans hchip
  exact (h.keeps hcall hfree rfl).mono fun _ _ hafter => hafter.2.1

/-- A program that does not ask for the identification adds no reading of it. -/
theorem idReads (hcodes : Opcode.readJedecId.code ∉ codes) :
    program.Ends Bench.environment (fun _ after => after.idReads = bench.idReads) bench := by
  have hcall : ∀ request (chip : Chip) (trace : Array TraceEntry) refused,
      BusCall.Among codes request →
      trace.toList.countP TraceEntry.readsId = bench.idReads →
        (trace.push (.call request refused)).toList.countP TraceEntry.readsId =
          bench.idReads := by
    intro request _ trace refused hrequest htrace
    have hother : (TraceEntry.call request refused).readsId = false := by
      refine beq_false_of_ne fun hcode => hcodes (hrequest _ hcode)
    rw [Bench.idReads_push, hother, htrace]
    rfl
  exact (h.keeps hcall hfree rfl).mono fun _ _ hafter => hafter.2.1

/-- What is recorded of a run is among the instructions listed. -/
theorem sends :
    program.Ends Bench.environment (fun _ after => bench.Adds codes after) bench := by
  have hcall : ∀ request (chip : Chip) (trace : Array TraceEntry) refused,
      BusCall.Among codes request →
      (∃ sent, trace.toList.filterMap TraceEntry.command? = bench.commands ++ sent ∧
        ∀ entry ∈ sent, entry.1.instruction ∈ codes) →
      ∃ sent, (trace.push (.call request refused)).toList.filterMap TraceEntry.command? =
        bench.commands ++ sent ∧ ∀ entry ∈ sent, entry.1.instruction ∈ codes := by
    rintro request _ trace refused hrequest ⟨sent, hsent, hamong⟩
    refine ⟨sent ++ (TraceEntry.call request refused).command?.toList, ?_, ?_⟩
    · rw [Array.toList_push, List.filterMap_append, hsent, List.append_assoc]
      rfl
    · intro entry hentry
      rcases List.mem_append.mp hentry with hold | hnew
      · exact hamong entry hold
      · cases request with
        | command command =>
            obtain rfl : entry = (command, refused) := by simpa [TraceEntry.command?] using hnew
            exact hrequest _ rfl
        | _ => simp [TraceEntry.command?] at hnew
  exact (h.keeps hcall hfree ⟨[], (List.append_nil _).symm, by simp⟩).mono
    fun _ _ hafter => hafter.2.1

end Among

end Program.Orderly

end NorFlash
